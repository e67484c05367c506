-- The words of a path. Slashes and blanks are in no word, so the words of a path are those of
-- its segments, one segment after another. What is generated from a path only depends on its
-- segments then: the names of its artifacts as well as its captures.
import RestContract.Proofs.ArtifactNames
import RestContract.Proofs.EndpointSteps
import RestContract.Proofs.PathText

namespace RestContract

namespace Naming

/-! ## Separators -/

theorem isWordChar_slash : isWordChar '/' = false := by decide

theorem isWordChar_iff {c : Char} : isWordChar c = true ↔ (65 ≤ c.toNat ∧ c.toNat ≤ 90) ∨
    (97 ≤ c.toNat ∧ c.toNat ≤ 122) ∨ (48 ≤ c.toNat ∧ c.toNat ≤ 57) := by
  have hupper : c.isUpper = true ↔ 65 ≤ c.toNat ∧ c.toNat ≤ 90 := decide_eq_true_iff
  have hlower : c.isLower = true ↔ 97 ≤ c.toNat ∧ c.toNat ≤ 122 :=
    Bool.and_eq_true_iff.trans (and_congr decide_eq_true_iff decide_eq_true_iff)
  have hdigit : c.isDigit = true ↔ 48 ≤ c.toNat ∧ c.toNat ≤ 57 := Char.isDigit_iff_toNat
  have hword : isWordChar c = (c.isUpper || c.isLower || c.isDigit) := rfl
  rw [hword, Bool.or_eq_true, Bool.or_eq_true, hupper, hlower, hdigit, or_assoc]

/-- No blank is a letter from A to Z or a digit. -/
theorem isWordChar_of_isBlank {c : Char} (h : Text.isBlank c = true) : isWordChar c = false := by
  simp only [Text.isBlank, Text.blankRanges, List.any_cons, List.any_nil, Bool.or_false,
    Bool.or_eq_true, Bool.and_eq_true, decide_eq_true_eq] at h
  rw [Bool.eq_false_iff, ne_eq, isWordChar_iff]
  omega

/-- Separators in front of a text are in no word. -/
theorem words_dropWhile {p : Char → Bool} (hp : ∀ c, p c = true → isWordChar c = false)
    (cs : List Char) : words (cs.dropWhile p) = words cs := by
  induction cs with
  | nil => rfl
  | cons c cs ih =>
    rw [List.dropWhile_cons]
    split
    · rename_i hc
      rw [ih, words_cons_separator (hp c hc)]
    · rfl

/-- Separators behind a text are in no word. -/
theorem words_rdropWhile {p : Char → Bool} (hp : ∀ c, p c = true → isWordChar c = false)
    (cs : List Char) : words (cs.rdropWhile p) = words cs := by
  induction cs using List.reverseRecOn with
  | nil => rfl
  | append_singleton cs c ih =>
    by_cases hc : p c = true
    · rw [List.rdropWhile_concat_pos p cs c hc, ih, words_append_separator (hp c hc)]
      simp [words]
    · rw [List.rdropWhile_concat_neg p cs c hc]

theorem words_trimChars (cs : List Char) : words (Text.trimChars cs) = words cs := by
  rw [Text.trimChars_eq, words_rdropWhile fun _ => isWordChar_of_isBlank,
    words_dropWhile fun _ => isWordChar_of_isBlank]

/-! ## The words of a path -/

/-- The words of a text are those of its parts between slashes. -/
theorem words_parts (cs : List Char) : (Path.parts cs).flatMap words = words cs := by
  induction hlen : cs.length using Nat.strongRecOn generalizing cs with
  | ind n ih =>
    by_cases hslash : '/' ∈ cs
    · obtain ⟨xs, ys, rfl⟩ := List.append_of_mem hslash
      rw [List.length_append, List.length_cons] at hlen
      rw [Path.parts_append_slash, List.flatMap_append, ih xs.length (by omega) xs rfl,
        ih ys.length (by omega) ys rfl, words_append_separator isWordChar_slash]
    · rw [Path.parts_of_no_slash hslash]
      exact List.append_nil _

/-- The words of a path are those of its segments. A part of blanks alone has none. -/
theorem words_segments (path : String) :
    (Path.segments path).flatMap (fun s => words s.toList) = words path.toList := by
  rw [← words_parts, Path.segments]
  induction Path.parts path.toList with
  | nil => rfl
  | cons part rest ih =>
    rw [List.map_cons, List.filterMap_cons, List.flatMap_cons, ← ih, ← words_trimChars part]
    by_cases hempty : Text.trimChars part = []
    · simp [hempty, words]
    · simp [hempty]

theorem alphanumeric_congr {p q : String} (h : Path.segments p = Path.segments q) :
    alphanumeric p = alphanumeric q := by
  rw [alphanumeric, alphanumeric, ← words_segments p, ← words_segments q, h]

end Naming

/-! ## What is generated from a path -/

theorem Path.params_congr {p q : String} (h : segments p = segments q) : params p = params q := by
  rw [params, params, h]

/-- The path that is written for the segments of a path has these segments. -/
theorem Path.segments_join_segments (p : String) : segments (join (segments p)) = segments p :=
  segments_join_of_segments fun _ hs => segments_of_mem hs

/-- What is read off the two paths is the same: the captures, and the name of each artifact. -/
structure Path.ReadsAlike (p q : String) : Prop where
  params_eq : params p = params q
  artifactName_eq : ∀ method role,
    Naming.artifactName method p role = Naming.artifactName method q role

theorem Path.readsAlike_of_segments_eq {p q : String} (h : segments p = segments q) :
    ReadsAlike p q where
  params_eq := params_congr h
  artifactName_eq method role := by
    rw [Naming.artifactName, Naming.artifactName, Naming.alphanumeric_congr h]

end RestContract
