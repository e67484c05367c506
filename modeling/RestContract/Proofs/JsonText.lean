-- JSON text is read back. A string comes back with each of its characters, however they are
-- escaped, and so does every value without numbers that nests no deeper than the reader goes.
import RestContract.Json.Printer
import RestContract.Json.Reader
import RestContract.Proofs.DocumentEquality

namespace RestContract.Json

open HasParts (preorder)

/-! ## Strings -/

/-- A control character is written with the four digits of its number. -/
theorem hexNumber?_control : ∀ n < 0x20,
    ((if n < 0x10 then ['0'] else []) ++ Text.hexDigits n).length = 2 ∧
      hexNumber? ('0' :: '0' :: ((if n < 0x10 then ['0'] else []) ++ Text.hexDigits n)) =
        some n := by
  decide

theorem readStringBody_control {c : Char} (h : c.toNat < 0x20) (rest : List Char) :
    readStringBody (['\\', 'u', '0', '0'] ++ (if c.toNat < 0x10 then ['0'] else []) ++
      Text.hexDigits c.toNat ++ rest) = (readStringBody rest).push c := by
  obtain ⟨hlength, hnumber⟩ := hexNumber?_control c.toNat h
  obtain ⟨a, b, hdigits⟩ := List.length_eq_two.mp hlength
  rw [hdigits] at hnumber
  have hsurrogate : ¬ 0xD800 ≤ c.toNat := by omega
  rw [List.append_assoc ['\\', 'u', '0', '0'], hdigits]
  simp [readStringBody, hnumber, hsurrogate]

theorem readStringBody_plain {c : Char} (hquote : c ≠ '"') (hbackslash : c ≠ '\\')
    (hcontrol : ¬ c.toNat < 0x20) (rest : List Char) :
    readStringBody (c :: rest) = (readStringBody rest).push c := by
  rw [readStringBody]
  · rw [if_neg hcontrol]
  · exact hquote
  · exact hbackslash

/-- A character comes back from its escape. -/
theorem readStringBody_escapeChar (c : Char) (rest : List Char) :
    readStringBody (escapeChar c ++ rest) = (readStringBody rest).push c := by
  unfold escapeChar
  split
  case h_8 hquote hbackslash _ _ _ _ _ =>
    split
    · rename_i hcontrol
      exact readStringBody_control hcontrol rest
    · rename_i hcontrol
      exact readStringBody_plain hquote hbackslash hcontrol rest
  all_goals simp [readStringBody, shortEscape?]

/-- The characters of a string come back one by one, up to the closing quote. -/
theorem readStringBody_escaped (cs rest : List Char) :
    readStringBody (cs.flatMap escapeChar ++ '"' :: rest) = some (cs, rest) := by
  induction cs with
  | nil => rfl
  | cons c cs ih =>
    rw [List.flatMap_cons, List.append_assoc, readStringBody_escapeChar, ih]
    rfl

theorem toList_quote (s : String) :
    (quote s).toList = '"' :: (s.toList.flatMap escapeChar ++ ['"']) := by
  simp [quote]

theorem readString_quote (s : String) (rest : List Char) :
    readString ((quote s).toList ++ rest) = some (s, rest) := by
  rw [toList_quote, List.cons_append, readString, List.append_assoc, List.singleton_append,
    readStringBody_escaped]
  simp

/-! ## Items -/

theorem skipSpace_cons {c : Char} (h : isSpace c = false) (cs : List Char) :
    skipSpace (c :: cs) = c :: cs := by
  simp [skipSpace, h]

section Items

variable {α : Type} {item : List Char → Read α} {text : α → List Char} {closing : Char}
  {xs : List α}

/-- The reader takes the text of each item, whatever is behind it. -/
def ReadsBack (item : List Char → Read α) (text : α → List Char) (xs : List α) : Prop :=
  ∀ x ∈ xs, ∀ rest, item (text x ++ rest) = some (x, rest)

/-- The text of each item begins with a character that neither is space nor closes the
container. -/
def BeginsInside (text : α → List Char) (closing : Char) (xs : List α) : Prop :=
  ∀ x ∈ xs, ∃ c cs, text x = c :: cs ∧ isSpace c = false ∧ c ≠ closing

theorem readItems_intercalate (hspace : isSpace closing = false) (hcomma : closing ≠ ',')
    (hne : xs ≠ []) (h : ReadsBack item text xs) {bound : Nat} (hbound : xs.length ≤ bound)
    (rest : List Char) :
    readItems item closing bound ([','].intercalate (xs.map text) ++ closing :: rest) =
      some (xs, rest) := by
  induction xs generalizing bound with
  | nil => exact absurd rfl hne
  | cons x xs ih =>
    obtain ⟨hx, hxs⟩ := List.forall_mem_cons.mp h
    obtain ⟨bound, rfl⟩ := Nat.exists_eq_succ_of_ne_zero (Nat.ne_zero_of_lt hbound)
    rw [List.length_cons, Nat.succ_le_succ_iff] at hbound
    cases xs with
    | nil =>
      rw [List.map_singleton, List.intercalate_singleton, readItems, hx]
      simp [skipSpace_cons hspace]
    | cons y ys =>
      rw [List.map_cons, List.map_cons, List.intercalate_cons_cons, List.append_assoc,
        List.append_assoc, readItems, hx]
      have hrest := ih (List.cons_ne_nil y ys) hxs hbound
      rw [List.map_cons] at hrest
      simp [skipSpace_cons (c := ',') rfl, hcomma.symm, hrest]

theorem length_le_length_intercalate (h : BeginsInside text closing xs) :
    xs.length ≤ ([','].intercalate (xs.map text)).length := by
  induction xs with
  | nil => exact Nat.zero_le _
  | cons x xs ih =>
    obtain ⟨⟨c, cs, hx, -⟩, hxs⟩ := List.forall_mem_cons.mp h
    have hrest := ih hxs
    cases xs with
    | nil => simp [hx]
    | cons y ys =>
      rw [List.map_cons] at hrest
      rw [List.map_cons, List.map_cons, List.intercalate_cons_cons]
      simp only [List.length_append, List.length_cons, hx] at hrest ⊢
      omega

/-- The inside of a container is read back with its closing character. -/
theorem readContainer_intercalate (hspace : isSpace closing = false) (hcomma : closing ≠ ',')
    (h : ReadsBack item text xs) (hbegins : BeginsInside text closing xs) (rest : List Char) :
    readContainer item closing ([','].intercalate (xs.map text) ++ closing :: rest) =
      some (xs, rest) := by
  cases xs with
  | nil => simp [readContainer, skipSpace_cons hspace]
  | cons x xs =>
    have hlength := length_le_length_intercalate hbegins
    obtain ⟨c, cs, hx, hc, hclosing⟩ := hbegins x List.mem_cons_self
    have hbound : (x :: xs).length ≤
        ([','].intercalate ((x :: xs).map text) ++ closing :: rest).length := by
      rw [List.length_append]
      omega
    have hread := readItems_intercalate hspace hcomma (List.cons_ne_nil x xs) h hbound rest
    obtain ⟨inside, hinside⟩ : ∃ inside, [','].intercalate ((x :: xs).map text) = c :: inside := by
      cases xs with
      | nil => exact ⟨cs, by simp [hx]⟩
      | cons y ys =>
        rw [List.map_cons, List.map_cons, List.intercalate_cons_cons, hx]
        exact ⟨_, rfl⟩
    rw [hinside, List.cons_append] at hread ⊢
    rw [readContainer, skipSpace_cons hc]
    simpa [hclosing] using hread

end Items

/-! ## Values -/

/-- The value is a number. -/
def isNumber : Json → Bool
  | num _ => true
  | _ => false

/-- There is no number in the value. -/
def NumberFree (v : Json) : Prop := ∀ n ∈ preorder v, n.isNumber = false

theorem numberFree_iff {v : Json} :
    v.NumberFree ↔ v.isNumber = false ∧ ∀ p ∈ v.parts, p.NumberFree :=
  HasParts.forall_mem_preorder_iff

theorem compactItems_eq (items : List Json) : compactItems items = items.map compact := by
  induction items with
  | nil => rfl
  | cons v vs ih => rw [compactItems, ih, List.map_cons]

theorem compactEntries_eq (es : List (String × Json)) :
    compactEntries es = es.map fun e => quote e.1 ++ ":" ++ compact e.2 := by
  induction es with
  | nil => rfl
  | cons e es ih => rw [compactEntries, ih, List.map_cons]

theorem toList_compact_arr (items : List Json) : (arr items).compact.toList =
    '[' :: ([','].intercalate (items.map fun v => v.compact.toList) ++ [']']) := by
  simp [compact, compactItems_eq, Function.comp_def]

/-- The characters of an entry. -/
def entryText (e : String × Json) : List Char := (quote e.1).toList ++ ':' :: e.2.compact.toList

theorem toList_compact_obj (es : List (String × Json)) : (obj es).compact.toList =
    '\x7b' :: ([','].intercalate (es.map entryText) ++ ['\x7d']) := by
  unfold entryText
  simp [compact, compactEntries_eq, Function.comp_def]

theorem beginsInside_compact {items : List Json} (h : ∀ v ∈ items, v.isNumber = false) :
    BeginsInside (fun v => v.compact.toList) ']' items := by
  intro v hv
  cases v with
  | num n => cases h _ hv
  | str s => exact ⟨_, _, toList_quote s, rfl, by decide⟩
  | arr items => exact ⟨_, _, toList_compact_arr items, rfl, by decide⟩
  | obj es => exact ⟨_, _, toList_compact_obj es, rfl, by decide⟩
  | null => exact ⟨_, _, rfl, rfl, by decide⟩
  | bool b => cases b <;> exact ⟨_, _, rfl, rfl, by decide⟩

theorem beginsInside_entryText (es : List (String × Json)) : BeginsInside entryText '\x7d' es := by
  intro e _
  exact ⟨_, _, by rw [entryText, toList_quote]; rfl, rfl, by decide⟩

theorem readEntry_entryText {value : List Char → Read Json} {e : String × Json}
    (h : ∀ rest, value (e.2.compact.toList ++ rest) = some (e.2, rest)) (rest : List Char) :
    readEntry value (entryText e ++ rest) = some (e, rest) := by
  have hkey : skipSpace (entryText e ++ rest) = entryText e ++ rest := by
    rw [entryText, toList_quote]
    exact skipSpace_cons rfl _
  rw [readEntry, hkey, entryText, List.append_assoc, readString_quote, List.cons_append]
  simp [skipSpace_cons (c := ':') rfl, h]

/-! ## Reading values -/

theorem readValue_quote (depth : Nat) (cs : List Char) : readValue depth ('"' :: cs) =
    (readString ('"' :: cs)).map fun (s, rest) => (str s, rest) := by
  rw [readValue, skipSpace_cons rfl]
  rfl

theorem readValue_bracket (depth : Nat) (cs : List Char) : readValue (depth + 1) ('[' :: cs) =
    (readContainer (readValue depth) ']' cs).map fun (vs, rest) => (arr vs, rest) := by
  rw [readValue, skipSpace_cons rfl]
  rfl

theorem readValue_brace (depth : Nat) (cs : List Char) : readValue (depth + 1) ('\x7b' :: cs) =
    (readContainer (readEntry (readValue depth)) '\x7d' cs).map fun (es, rest) =>
      (obj es, rest) := by
  rw [readValue, skipSpace_cons rfl]
  rfl

/-- A value comes back from its text, whatever is behind it. -/
theorem readValue_compact {v : Json} (hv : v.NumberFree) {depth : Nat} (hdepth : v.depth ≤ depth)
    (rest : List Char) : readValue depth (v.compact.toList ++ rest) = some (v, rest) := by
  induction v using HasParts.induct generalizing depth rest with
  | step v ih =>
    obtain ⟨hnumber, hparts⟩ := numberFree_iff.mp hv
    cases v with
    | num n => cases hnumber
    | null => simp [compact, readValue, skipSpace, isSpace]
    | bool b => cases b <;> simp [compact, readValue, skipSpace, isSpace]
    | str s =>
      have hread := readString_quote s rest
      rw [toList_quote, List.cons_append] at hread
      rw [compact, toList_quote, List.cons_append, readValue_quote, hread]
      rfl
    | arr items =>
      have hinside : depthItems items + 1 ≤ depth := hdepth
      obtain ⟨depth, rfl⟩ : ∃ below, depth = below + 1 := ⟨depth - 1, by omega⟩
      rw [Nat.add_le_add_iff_right] at hinside
      have hitems : ReadsBack (readValue depth) (fun v => v.compact.toList) items := fun v hv =>
        ih v hv (hparts v hv) (Nat.le_trans (depth_le_of_mem_items hv) hinside)
      have hbegins := beginsInside_compact fun v hv => (numberFree_iff.mp (hparts v hv)).1
      rw [toList_compact_arr, List.cons_append, List.append_assoc, List.singleton_append,
        readValue_bracket, readContainer_intercalate rfl (by decide) hitems hbegins]
      rfl
    | obj es =>
      have hinside : depthEntries es + 1 ≤ depth := hdepth
      obtain ⟨depth, rfl⟩ : ∃ below, depth = below + 1 := ⟨depth - 1, by omega⟩
      rw [Nat.add_le_add_iff_right] at hinside
      have hentries : ReadsBack (readEntry (readValue depth)) entryText es := fun e he =>
        have hpart : e.2 ∈ (obj es).parts := List.mem_map_of_mem he
        readEntry_entryText (ih e.2 hpart (hparts e.2 hpart)
          (Nat.le_trans (depth_le_of_mem_entries he) hinside))
      rw [toList_compact_obj, List.cons_append, List.append_assoc, List.singleton_append,
        readValue_brace, readContainer_intercalate rfl (by decide) hentries
          (beginsInside_entryText es)]
      rfl

/-- The text of a value is read as the value. -/
theorem read?_compact {v : Json} (hv : v.NumberFree) (hdepth : v.depth ≤ maxDepth) :
    read? v.compact = some v := by
  have hread := readValue_compact hv hdepth []
  rw [List.append_nil] at hread
  rw [read?, hread]
  rfl

/-- A text in normal form is what it was written from. -/
theorem parse?_compact {v : Json} (hv : v.NumberFree) (hdepth : v.depth ≤ maxDepth)
    (hnormal : v.normal = v) : parse? v.compact = some v := by
  rw [parse?, read?_compact hv hdepth, Option.map_some, hnormal]

end RestContract.Json
