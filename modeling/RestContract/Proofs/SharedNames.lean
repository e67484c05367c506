-- Which texts share a name. A name drops separators and letter case and keeps the beginnings of
-- words as capitals. A word that begins with a digit has no capital, so its beginning is lost and
-- it counts as the end of the word in front of it. All else can be read back from the name.
import Mathlib
import RestContract.Proofs.ArtifactNames

namespace RestContract.Naming

/-! ## The words that last -/

/-- The maximal runs of letters and digits: a text is cut at everything else. -/
def runs (cs : List Char) : List (List Char) :=
  (cs.splitOnP fun c => !isWordChar c).filter fun r => !r.isEmpty

/-- The word begins with a digit. -/
def beginsWithDigit (w : List Char) : Bool := w.head?.any Char.isDigit

/-- The words with each one that begins with a digit put at the end of the word in front. -/
def glued : List (List Char) → List (List Char)
  | [] => []
  | w :: ws =>
    match glued ws with
    | [] => [w]
    | v :: vs => if beginsWithDigit v then (w ++ v) :: vs else w :: v :: vs

/-- The words of a text as far as they last in its name. -/
def lastingWords (text : String) : List (List Char) :=
  glued ((runs text.toList).map (·.map Char.toLower))

/-! ## Runs -/

theorem runs_cons_separator {c : Char} (h : isWordChar c = false) (cs : List Char) :
    runs (c :: cs) = runs cs := by
  simp [runs, List.splitOnP_cons_eq_if_modifyHead, h]

theorem runs_cons_before_separator {c d : Char} (hc : isWordChar c = true)
    (hd : isWordChar d = false) (cs : List Char) : runs (c :: d :: cs) = [c] :: runs (d :: cs) := by
  simp [runs, List.splitOnP_cons_eq_if_modifyHead, hc, hd]

theorem runs_cons_before_word {c d : Char} {cs w : List Char} {ws : List (List Char)}
    (hc : isWordChar c = true) (hd : isWordChar d = true) (h : runs (d :: cs) = w :: ws) :
    runs (c :: d :: cs) = (c :: w) :: ws := by
  obtain ⟨p, ps, hps⟩ := List.exists_cons_of_ne_nil
    (List.splitOnP_ne_nil (fun c => !isWordChar c) cs)
  simpa [runs, List.splitOnP_cons_eq_if_modifyHead, hc, hd, hps] using h

/-- Words are taken one character at a time. They are the runs all the same. -/
theorem words_eq_runs (cs : List Char) : words cs = runs cs := by
  induction cs with
  | nil => rfl
  | cons c cs ih =>
    by_cases hc : isWordChar c = true
    · cases cs with
      | nil => simp [words, runs, List.splitOnP_cons_eq_if_modifyHead, hc]
      | cons d ds =>
        by_cases hd : isWordChar d = true
        · obtain ⟨w, ws, hw⟩ := exists_words_eq_cons hd ds
          rw [words_cons_before_word hc hd hw, runs_cons_before_word hc hd (ih ▸ hw)]
        · rw [Bool.not_eq_true] at hd
          rw [words_cons_before_separator hc hd, runs_cons_before_separator hc hd, ih]
    · rw [Bool.not_eq_true] at hc
      rw [words_cons_separator hc, runs_cons_separator hc, ih]

theorem ne_nil_of_mem_runs {cs r : List Char} (h : r ∈ runs cs) : r ≠ [] := by
  simpa using (List.mem_filter.mp h).2

/-- The runs hold the letters and digits of the text and nothing else. -/
theorem flatten_runs (cs : List Char) : (runs cs).flatten = cs.filter isWordChar := by
  rw [runs, List.flatten_filter_not_isEmpty]
  induction cs with
  | nil => rfl
  | cons c cs ih =>
    rw [List.splitOnP_cons_eq_if_modifyHead]
    by_cases hc : isWordChar c = true
    · obtain ⟨p, ps, hps⟩ := List.exists_cons_of_ne_nil
        (List.splitOnP_ne_nil (fun c => !isWordChar c) cs)
      rw [hps] at ih ⊢
      simpa [hc] using ih
    · simpa [hc] using ih

/-! ## Capitals -/

theorem capitalize_map_toLower (w : List Char) :
    capitalize (w.map Char.toLower) = capitalize w := by
  cases w <;> simp [capitalize, Function.comp_def]

theorem capitalize_append {w : List Char} (h : w ≠ []) (v : List Char) :
    capitalize (w ++ v) = capitalize w ++ v.map Char.toLower := by
  obtain ⟨c, cs, rfl⟩ := List.exists_cons_of_ne_nil h
  simp [capitalize]

/-- A digit has no capital. -/
theorem capitalize_of_beginsWithDigit {w : List Char} (h : beginsWithDigit w = true) :
    capitalize w = w.map Char.toLower := by
  cases w with
  | nil => rfl
  | cons c cs =>
    have hc : c.isDigit = true := by simpa [beginsWithDigit] using h
    rw [capitalize, List.map_cons, toUpper_of_isDigit hc, toLower_of_isDigit hc]

/-! ## Glued words -/

section Glued

variable {ws : List (List Char)}

/-- Nothing is lost. -/
theorem flatten_glued (ws : List (List Char)) : (glued ws).flatten = ws.flatten := by
  induction ws with
  | nil => rfl
  | cons w ws ih =>
    rw [glued, List.flatten_cons, ← ih]
    cases glued ws with
    | nil => rfl
    | cons v vs => dsimp only; split <;> simp

theorem ne_nil_of_mem_glued (h : ∀ w ∈ ws, w ≠ []) : ∀ w ∈ glued ws, w ≠ [] := by
  induction ws with
  | nil => exact List.forall_mem_nil _
  | cons w ws ih =>
    obtain ⟨hw, hws⟩ := List.forall_mem_cons.mp h
    have hrest := ih hws
    rw [glued]
    cases hglued : glued ws with
    | nil => simpa using hw
    | cons v vs =>
      rw [hglued] at hrest
      obtain ⟨hv, hvs⟩ := List.forall_mem_cons.mp hrest
      dsimp only
      split
      · exact List.forall_mem_cons.mpr ⟨List.append_ne_nil_of_left_ne_nil hw v, hvs⟩
      · exact List.forall_mem_cons.mpr ⟨hw, hrest⟩

/-- No word but the first begins with a digit. -/
theorem not_beginsWithDigit_of_mem_tail (ws : List (List Char)) :
    ∀ w ∈ (glued ws).tail, beginsWithDigit w = false := by
  induction ws with
  | nil => exact List.forall_mem_nil _
  | cons w ws ih =>
    rw [glued]
    cases hglued : glued ws with
    | nil => exact List.forall_mem_nil _
    | cons v vs =>
      rw [hglued] at ih
      dsimp only
      split
      · exact ih
      · rename_i hv
        exact List.forall_mem_cons.mpr ⟨by simpa using hv, ih⟩

/-- A word at the end of another one shows in a name as it does by itself. -/
theorem flatMap_capitalize_glued (h : ∀ w ∈ ws, w ≠ []) :
    (glued ws).flatMap capitalize = ws.flatMap capitalize := by
  induction ws with
  | nil => rfl
  | cons w ws ih =>
    obtain ⟨hw, hws⟩ := List.forall_mem_cons.mp h
    rw [glued, List.flatMap_cons, ← ih hws]
    cases glued ws with
    | nil => rfl
    | cons v vs =>
      dsimp only
      split
      · rename_i hv
        rw [List.flatMap_cons, List.flatMap_cons, capitalize_append hw,
          capitalize_of_beginsWithDigit hv, List.append_assoc]
      · rfl

end Glued

/-! ## Letter case -/

theorem isWordChar_eq_or {c : Char} : isWordChar c = (c.isAlpha || c.isDigit) := rfl

theorem isWordChar_toLower {c : Char} (h : isWordChar c = true) : isWordChar c.toLower = true := by
  rw [isWordChar_eq_or, Bool.or_eq_true] at h
  rcases h with halpha | hdigit
  · simp [isWordChar_eq_or, halpha]
  · rw [toLower_of_isDigit hdigit, isWordChar_of_isDigit hdigit]

theorem isWordChar_toUpper {c : Char} (h : isWordChar c = true) : isWordChar c.toUpper = true := by
  rw [isWordChar_eq_or, Bool.or_eq_true] at h
  rcases h with halpha | hdigit
  · simp [isWordChar_eq_or, halpha]
  · rw [toUpper_of_isDigit hdigit, isWordChar_of_isDigit hdigit]

/-- A character of a capitalized word is one of the word in either case. -/
theorem isWordChar_of_mem_capitalize {w : List Char} (hw : ∀ c ∈ w, isWordChar c = true) :
    ∀ c ∈ capitalize w, isWordChar c = true := by
  cases w with
  | nil => exact List.forall_mem_nil _
  | cons c cs =>
    obtain ⟨hc, hcs⟩ := List.forall_mem_cons.mp hw
    rw [capitalize, List.forall_mem_cons, List.forall_mem_map]
    exact ⟨isWordChar_toUpper hc, fun d hd => isWordChar_toLower (hcs d hd)⟩

/-! ## Lasting words -/

/-- A name is put together from the words that last, each with a capital. -/
theorem toList_alphanumeric (text : String) :
    (alphanumeric text).toList = (lastingWords text).flatMap capitalize := by
  have hne : ∀ w ∈ (runs text.toList).map (·.map Char.toLower), w ≠ [] := by
    simpa using fun r hr => ne_nil_of_mem_runs hr
  rw [lastingWords, flatMap_capitalize_glued hne, alphanumeric, String.toList_ofList,
    words_eq_runs, List.flatMap_map]
  simp only [capitalize_map_toLower]

theorem ne_nil_of_mem_lastingWords {text : String} {w : List Char} (h : w ∈ lastingWords text) :
    w ≠ [] := by
  refine ne_nil_of_mem_glued ?_ w h
  simpa using fun r hr => ne_nil_of_mem_runs hr

/-- The words that last are made of small letters and digits. -/
theorem of_mem_lastingWords {text : String} {w : List Char} (h : w ∈ lastingWords text) {c : Char}
    (hc : c ∈ w) : c.toLower = c ∧ isWordChar c = true := by
  have hmem : c ∈ (lastingWords text).flatten := List.mem_flatten_of_mem h hc
  rw [lastingWords, flatten_glued, ← List.map_flatten, flatten_runs] at hmem
  obtain ⟨d, hd, rfl⟩ := List.mem_map.mp hmem
  exact ⟨Char.toLower_toLower_eq_toLower d, isWordChar_toLower (List.mem_filter.mp hd).2⟩

/-! ## Reading a name -/

/-- The words that a name spells: a capital begins a new one. -/
def spelledWords (name : List Char) : List (List Char) :=
  (name.splitBy fun _ d => !d.isUpper).map (·.map Char.toLower)

theorem isChain_of_forall_mem_tail {β : Type} {R : β → β → Prop} {l : List β}
    (h : ∀ a ∈ l, ∀ b ∈ l.tail, R a b) : l.IsChain R := by
  rw [List.isChain_iff_getElem]
  intro i hi
  refine h _ (List.getElem_mem _) _ ?_
  rw [← List.getElem_tail (by simpa using Nat.lt_sub_of_add_lt hi)]
  exact List.getElem_mem _

/-- A capitalized word has a capital in front, unless it begins with a digit. -/
theorem isUpper_head_capitalize {w : List Char} (hne : capitalize w ≠ [])
    (hw : ∀ c ∈ w, isWordChar c = true) (hdigit : beginsWithDigit w = false) :
    ((capitalize w).head hne).isUpper = true := by
  cases w with
  | nil => exact absurd rfl hne
  | cons c cs =>
    have hc := hw c List.mem_cons_self
    have hnot : c.isDigit = false := by simpa [beginsWithDigit] using hdigit
    rw [isWordChar_eq_or, hnot, Bool.or_false] at hc
    show c.toUpper.isUpper = true
    rw [Char.isUpper_toUpper_eq_isAlpha, hc]

/-- There is no capital inside a capitalized word. -/
theorem isUpper_of_mem_tail_capitalize {w : List Char} :
    ∀ c ∈ (capitalize w).tail, c.isUpper = false := by
  cases w <;> simp [capitalize]

theorem map_toLower_capitalize {w : List Char} (hw : ∀ c ∈ w, c.toLower = c) :
    (capitalize w).map Char.toLower = w := by
  cases w with
  | nil => rfl
  | cons c cs =>
    obtain ⟨hc, hcs⟩ := List.forall_mem_cons.mp hw
    have hrest : cs.map Char.toLower = cs.map id := List.map_congr_left hcs
    rw [List.map_id] at hrest
    simp [capitalize, hc, hrest]

theorem capitalize_ne_nil {w : List Char} (h : w ≠ []) : capitalize w ≠ [] := by
  obtain ⟨c, cs, rfl⟩ := List.exists_cons_of_ne_nil h
  simp [capitalize]

/-- What a name spells are the words that lasted. -/
theorem spelledWords_alphanumeric (text : String) :
    spelledWords (alphanumeric text).toList = lastingWords text := by
  have hwords : ∀ w ∈ lastingWords text, ∀ c ∈ w, isWordChar c = true := fun w hw c hc =>
    (of_mem_lastingWords hw hc).2
  have hne : ∀ w ∈ lastingWords text, capitalize w ≠ [] := fun w hw =>
    capitalize_ne_nil (ne_nil_of_mem_lastingWords hw)
  have hsplit : ((lastingWords text).map capitalize).flatten.splitBy (fun _ d => !d.isUpper) =
      (lastingWords text).map capitalize := by
    refine List.splitBy_flatten ?_ ?_ ?_
    · simpa using hne
    · rw [List.forall_mem_map]
      intro w _
      exact isChain_of_forall_mem_tail fun _ _ d hd => by
        simpa using isUpper_of_mem_tail_capitalize d hd
    · rw [List.isChain_map]
      refine isChain_of_forall_mem_tail fun v hv w hw => ?_
      have hmem := List.mem_of_mem_tail hw
      refine ⟨hne v hv, hne w hmem, ?_⟩
      rw [isUpper_head_capitalize _ (hwords w hmem) (not_beginsWithDigit_of_mem_tail _ w hw)]
      rfl
  rw [spelledWords, toList_alphanumeric, List.flatMap_def, hsplit, List.map_map]
  have hback : (lastingWords text).map (List.map Char.toLower ∘ capitalize) =
      (lastingWords text).map id :=
    List.map_congr_left fun w hw =>
      map_toLower_capitalize fun c hc => (of_mem_lastingWords hw hc).1
  rw [hback, List.map_id]

/-! ## The law -/

/-- Two texts have the same name if and only if the same words of them last: they differ in
letter case, in what stands between the words, or in where a word begins with a digit. A name
is made of letters from A to Z and digits only. -/
theorem texts_share_a_name_iff_their_lasting_words_agree :
    (∀ x y : String, alphanumeric x = alphanumeric y ↔ lastingWords x = lastingWords y) ∧
      ∀ t : String, ∀ c ∈ (alphanumeric t).toList, isWordChar c = true := by
  refine ⟨fun x y => ⟨fun h => ?_, fun h => ?_⟩, fun t c hc => ?_⟩
  · rw [← spelledWords_alphanumeric x, h, spelledWords_alphanumeric y]
  · rw [← String.toList_inj, toList_alphanumeric, toList_alphanumeric, h]
  · rw [toList_alphanumeric] at hc
    obtain ⟨w, hw, hc⟩ := List.mem_flatMap.mp hc
    exact isWordChar_of_mem_capitalize (fun d hd => (of_mem_lastingWords hw hd).2) c hc

/-- The beginning of a word in front of a digit is lost, and in front of a letter it is not. -/
example : alphanumeric "/v1/2" = alphanumeric "/v12" ∧ alphanumeric "/a/b" ≠ alphanumeric "/ab" :=
  by decide

end RestContract.Naming
