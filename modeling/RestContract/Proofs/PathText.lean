-- The laws of path texts. Two paths with a slash between them have the segments of both, and a
-- segment of a path is itself a path of that one segment. So a path that is written for
-- segments is read as these segments.
import Mathlib.Data.List.DropRight
import RestContract.Path.Segment

namespace RestContract

/-! ## Blanks -/

namespace Text

theorem trimChars_eq (cs : List Char) :
    trimChars cs = (cs.dropWhile isBlank).rdropWhile isBlank := rfl

theorem mem_of_mem_trimChars {cs : List Char} {c : Char} (h : c ∈ trimChars cs) : c ∈ cs := by
  rw [trimChars_eq] at h
  have hmem := (List.rdropWhile_prefix isBlank _).subset h
  exact (List.dropWhile_sublist isBlank).subset hmem

/-- What is left in front of the last blanks still starts with the first character. -/
theorem dropWhile_trimChars (cs : List Char) :
    (trimChars cs).dropWhile isBlank = trimChars cs := by
  rw [List.dropWhile_eq_self_iff]
  intro hlen
  have hfront := List.dropWhile_idempotent isBlank cs
  rw [List.dropWhile_eq_self_iff] at hfront
  obtain ⟨rest, hrest⟩ := List.rdropWhile_prefix isBlank (cs.dropWhile isBlank)
  rw [← trimChars_eq] at hrest
  simp only [← hrest, List.length_append] at hfront
  simpa [List.getElem_append_left hlen] using hfront (by omega)

theorem trimChars_trimChars (cs : List Char) : trimChars (trimChars cs) = trimChars cs := by
  rw [trimChars_eq (trimChars cs), dropWhile_trimChars, trimChars_eq]
  exact List.rdropWhile_idempotent isBlank _

end Text

namespace Path

/-! ## Slashes -/

theorem parts_slash (cs : List Char) : parts ('/' :: cs) = [] :: parts cs := by
  simp [parts]

theorem parts_cons {c : Char} (hc : c ≠ '/') {cs part : List Char} {rest : List (List Char)}
    (h : parts cs = part :: rest) : parts (c :: cs) = (c :: part) :: rest := by
  simp [parts, hc, h]

/-- There is a part even if there is no slash. -/
theorem exists_parts_eq (cs : List Char) : ∃ part rest, parts cs = part :: rest := by
  cases cs with
  | nil => exact ⟨[], [], rfl⟩
  | cons c cs =>
    by_cases hc : c = '/'
    · rw [hc, parts_slash]
      exact ⟨[], _, rfl⟩
    · cases h : parts cs <;> simp [parts, hc, h]

theorem parts_append_slash (xs ys : List Char) :
    parts (xs ++ '/' :: ys) = parts xs ++ parts ys := by
  induction xs with
  | nil => exact parts_slash ys
  | cons x xs ih =>
    by_cases hx : x = '/'
    · rw [hx, List.cons_append, parts_slash, parts_slash, ih, List.cons_append]
    · obtain ⟨part, rest, h⟩ := exists_parts_eq xs
      rw [h, List.cons_append] at ih
      rw [List.cons_append, parts_cons hx ih, parts_cons hx h, List.cons_append]

theorem parts_of_no_slash {cs : List Char} (h : '/' ∉ cs) : parts cs = [cs] := by
  induction cs with
  | nil => rfl
  | cons c cs ih =>
    rw [List.mem_cons, not_or] at h
    exact parts_cons (Ne.symm h.1) (ih h.2)

theorem no_slash_of_mem_parts {cs part : List Char} (h : part ∈ parts cs) : '/' ∉ part := by
  induction cs generalizing part with
  | nil =>
    rw [List.mem_singleton.mp h]
    exact List.not_mem_nil
  | cons c cs ih =>
    by_cases hc : c = '/'
    · rw [hc, parts_slash] at h
      rcases List.mem_cons.mp h with rfl | hrest
      · exact List.not_mem_nil
      · exact ih hrest
    · obtain ⟨first, rest, hparts⟩ := exists_parts_eq cs
      rw [parts_cons hc hparts] at h
      rw [hparts] at ih
      rcases List.mem_cons.mp h with rfl | hrest
      · have hfirst := ih List.mem_cons_self
        simp [hfirst, Ne.symm hc]
      · exact ih (List.mem_cons_of_mem _ hrest)

/-! ## Segments -/

theorem segments_empty : segments "" = [] := by decide

theorem segments_append_slash (p q : String) :
    segments (p ++ "/" ++ q) = segments p ++ segments q := by
  unfold segments
  simp [parts_append_slash]

theorem exists_part_of_mem_segments {s p : String} (h : s ∈ segments p) :
    ∃ part ∈ parts p.toList, Text.trimChars part ≠ [] ∧
      s = String.ofList (Text.trimChars part) := by
  unfold segments at h
  simp only [List.mem_filterMap, List.mem_map] at h
  obtain ⟨_, ⟨part, hpart, rfl⟩, hs⟩ := h
  by_cases hempty : Text.trimChars part = []
  · simp [hempty] at hs
  · simp [hempty] at hs
    exact ⟨part, hpart, hempty, hs.symm⟩

/-- A segment of a path is a path of one segment. -/
theorem segments_of_mem {s p : String} (h : s ∈ segments p) : segments s = [s] := by
  obtain ⟨part, hpart, hne, rfl⟩ := exists_part_of_mem_segments h
  have hslash : '/' ∉ Text.trimChars part := fun hmem =>
    no_slash_of_mem_parts hpart (Text.mem_of_mem_trimChars hmem)
  unfold segments
  rw [String.toList_ofList, parts_of_no_slash hslash]
  simp [Text.trimChars_trimChars, hne]

theorem segments_intercalate (l : List String) :
    segments (String.intercalate "/" l) = l.flatMap segments := by
  induction l with
  | nil => exact segments_empty
  | cons s l ih =>
    rw [List.flatMap_cons]
    cases l with
    | nil => simp
    | cons r l => rw [String.intercalate_cons_cons, segments_append_slash, ih]

theorem segments_join (l : List String) : segments (join l) = l.flatMap segments := by
  have hjoin : join l = "" ++ "/" ++ String.intercalate "/" l := by simp [join]
  rw [hjoin, segments_append_slash, segments_empty, List.nil_append, segments_intercalate]

/-- The path of segments has these segments. -/
theorem segments_join_of_segments {l : List String} (h : ∀ s ∈ l, segments s = [s]) :
    segments (join l) = l := by
  rw [segments_join]
  induction l with
  | nil => rfl
  | cons s l ih =>
    obtain ⟨hs, hl⟩ := List.forall_mem_cons.mp h
    rw [List.flatMap_cons, hs, ih hl, List.singleton_append]

end Path

end RestContract
