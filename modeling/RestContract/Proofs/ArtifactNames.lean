-- The laws of artifact names. A name is the words of a method, a path and a role put
-- together with nothing between them. No method begins like another one and no role
-- ends like another one, so the three parts can be read back from the name.
import RestContract.Http.Method
import RestContract.Naming

namespace RestContract.Naming

/-! ## The words of a text -/

theorem words_cons_separator {c : Char} (h : isWordChar c = false) (cs : List Char) :
    words (c :: cs) = words cs := by
  simp [words, h]

theorem words_cons_before_separator {c d : Char} (hc : isWordChar c = true)
    (hd : isWordChar d = false) (cs : List Char) :
    words (c :: d :: cs) = [c] :: words (d :: cs) := by
  rw [words]
  simp [hc, hd]

theorem words_cons_before_word {c d : Char} {cs w : List Char} {ws : List (List Char)}
    (hc : isWordChar c = true) (hd : isWordChar d = true) (h : words (d :: cs) = w :: ws) :
    words (c :: d :: cs) = (c :: w) :: ws := by
  rw [words]
  simp only [hc, hd, if_true]
  rw [h]

/-- A letter or digit in front begins a word. -/
theorem exists_words_eq_cons {c : Char} (h : isWordChar c = true) (cs : List Char) :
    ∃ w ws, words (c :: cs) = w :: ws := by
  apply List.exists_cons_of_ne_nil
  cases cs with
  | nil => simp [words, h]
  | cons d ds =>
    rw [words]
    simp only [h, if_true]
    split
    · split <;> simp
    · simp

/-- A separator ends a word, so the words in front of it and behind it do not mix. -/
theorem words_append_separator {c : Char} (h : isWordChar c = false) (xs ys : List Char) :
    words (xs ++ c :: ys) = words xs ++ words ys := by
  induction xs with
  | nil => simpa [words] using words_cons_separator h ys
  | cons x xs ih =>
    by_cases hx : isWordChar x = true
    · cases xs with
      | nil => simp [words, hx, h]
      | cons d ds =>
        simp only [List.cons_append] at ih ⊢
        by_cases hd : isWordChar d = true
        · obtain ⟨w, ws, hw⟩ := exists_words_eq_cons hd ds
          rw [hw] at ih
          rw [words_cons_before_word hx hd ih, words_cons_before_word hx hd hw]
          rfl
        · simp only [Bool.not_eq_true] at hd
          rw [words_cons_before_separator hx hd, words_cons_before_separator hx hd, ih]
          rfl
    · simp only [Bool.not_eq_true] at hx
      rw [List.cons_append, words_cons_separator hx, words_cons_separator hx, ih]

/-- Letters and digits alone are one word. -/
theorem words_of_wordChars {cs : List Char} (hne : cs ≠ []) (h : ∀ c ∈ cs, isWordChar c = true) :
    words cs = [cs] := by
  induction cs with
  | nil => exact absurd rfl hne
  | cons c cs ih =>
    have hc := h c List.mem_cons_self
    cases cs with
    | nil => simp [words, hc]
    | cons d ds =>
      have hd := h d (List.mem_cons_of_mem _ List.mem_cons_self)
      have hrest := ih (by simp) fun x hx => h x (List.mem_cons_of_mem _ hx)
      exact words_cons_before_word hc hd hrest

/-! ## Words of digits -/

theorem isWordChar_of_isDigit {c : Char} (h : c.isDigit = true) : isWordChar c = true := by
  simp [isWordChar, Char.isAlphanum, h]

/-- The digits come before the letters. -/
theorem not_letter_of_isDigit {c : Char} (h : c.isDigit = true) :
    ¬ ('a'.val ≤ c.val ∧ c.val ≤ 'z'.val) ∧ ¬ ('A'.val ≤ c.val ∧ c.val ≤ 'Z'.val) := by
  simp only [Char.isDigit, Bool.and_eq_true, decide_eq_true_eq] at h
  grind

theorem toUpper_of_isDigit {c : Char} (h : c.isDigit = true) : c.toUpper = c :=
  dif_neg (not_letter_of_isDigit h).1

theorem toLower_of_isDigit {c : Char} (h : c.isDigit = true) : c.toLower = c :=
  dif_neg (not_letter_of_isDigit h).2

theorem capitalize_of_isDigit {cs : List Char} (h : ∀ c ∈ cs, c.isDigit = true) :
    capitalize cs = cs := by
  cases cs with
  | nil => rfl
  | cons c cs =>
    have hrest : cs.map Char.toLower = cs.map id :=
      List.map_congr_left fun x hx => toLower_of_isDigit (h x (List.mem_cons_of_mem _ hx))
    rw [capitalize, toUpper_of_isDigit (h c List.mem_cons_self), hrest, List.map_id]

theorem isDigit_of_mem_toDigits {n : Nat} {c : Char} (h : c ∈ Nat.toDigits 10 n) :
    c.isDigit = true := Nat.isDigit_of_mem_toDigits (by decide) (by decide) h

/-- The name of the role of a status code ends with the code. -/
theorem alphanumeric_responseModelFor (status : Nat) :
    (alphanumeric (Role.responseModelFor status).text).toList =
      "ResponseModel".toList ++ Nat.toDigits 10 status := by
  have hdigits : words (Nat.toDigits 10 status) = [Nat.toDigits 10 status] :=
    words_of_wordChars Nat.toDigits_ne_nil fun c hc =>
      isWordChar_of_isDigit (isDigit_of_mem_toDigits hc)
  have hcut : (Role.responseModelFor status).text.toList =
      "Response-Model".toList ++ '-' :: Nat.toDigits 10 status := by
    simp [Role.text]
  have hfront : (words "Response-Model".toList).flatMap capitalize = "ResponseModel".toList := by
    decide
  rw [alphanumeric, String.toList_ofList, hcut, words_append_separator (by decide),
    List.flatMap_append, hfront, hdigits]
  simp [capitalize_of_isDigit fun c hc => isDigit_of_mem_toDigits hc]

/-! ## Reading a name -/

/-- The method whose name is ahead. -/
def methodAhead? : List Char → Option Method
  | 'G' :: _ => some .get
  | 'P' :: 'o' :: _ => some .post
  | 'P' :: 'u' :: _ => some .put
  | 'D' :: _ => some .delete
  | 'O' :: _ => some .options
  | 'A' :: _ => some .any
  | _ => none

/-- The role of a name, read from its last character on. A status code is the digits at the
end; without one, the last letters tell the roles apart. -/
def roleBehind? (cs : List Char) : Option Role :=
  match cs.takeWhile Char.isDigit with
  | [] =>
    match cs with
    | 'r' :: _ => some .requestValidator
    | 'l' :: 'e' :: 'd' :: 'o' :: 'M' :: 't' :: _ => some .requestModel
    | 'l' :: 'e' :: 'd' :: 'o' :: 'M' :: 'e' :: _ => some .responseModel
    | _ => none
  | digits => some (.responseModelFor (Nat.ofDigitChars 10 digits.reverse 0))

theorem methodAhead?_append (m : Method) (cs : List Char) :
    methodAhead? ((alphanumeric m.name).toList ++ cs) = some m := by
  cases m <;> rfl

theorem roleBehind?_of_digits {digits : List Char} {c : Char} {cs : List Char}
    (hne : digits ≠ []) (hd : ∀ x ∈ digits, x.isDigit = true) (hc : c.isDigit = false) :
    roleBehind? (digits.reverse ++ c :: cs) =
      some (.responseModelFor (Nat.ofDigitChars 10 digits 0)) := by
  have htake : (digits.reverse ++ c :: cs).takeWhile Char.isDigit = digits.reverse := by
    rw [List.takeWhile_append_of_pos fun x hx => hd x (List.mem_reverse.mp hx)]
    simp [hc]
  unfold roleBehind?
  rw [htake]
  split
  · rename_i he
    exact absurd (List.reverse_eq_nil_iff.mp he) hne
  · rw [List.reverse_reverse]

theorem roleBehind?_append (r : Role) (cs : List Char) :
    roleBehind? ((alphanumeric r.text).toList.reverse ++ cs) = some r := by
  cases r with
  | requestValidator => rfl
  | requestModel => rfl
  | responseModel => rfl
  | responseModelFor status =>
    rw [alphanumeric_responseModelFor, List.reverse_append, List.append_assoc]
    have hmodel : ("ResponseModel".toList).reverse ++ cs =
        'l' :: ("ResponseMode".toList.reverse ++ cs) := rfl
    rw [hmodel, roleBehind?_of_digits Nat.toDigits_ne_nil
      (fun _ hx => isDigit_of_mem_toDigits hx) (by decide), Nat.ofDigitChars_ten_toDigits]

theorem toList_artifactName (method path role : String) :
    (artifactName method path role).toList = (alphanumeric method).toList ++
      ((alphanumeric path).toList ++ (alphanumeric role).toList) := by
  simp [artifactName]

/-- Equal names have equal parts. The method is read in front and the role behind; what is
left between them is the path. -/
theorem parts_eq_of_artifactName_eq {m m' : Method} {p p' : String} {r r' : Role}
    (h : artifactName m.name p r.text = artifactName m'.name p' r'.text) :
    m = m' ∧ r = r' ∧ alphanumeric p = alphanumeric p' := by
  have hlist := congrArg String.toList h
  rw [toList_artifactName, toList_artifactName] at hlist
  have hm : m = m' := by
    have := congrArg methodAhead? hlist
    rw [methodAhead?_append, methodAhead?_append] at this
    exact Option.some.inj this
  subst hm
  have hrest := List.append_cancel_left hlist
  have hr : r = r' := by
    have := congrArg (roleBehind? ·.reverse) hrest
    simp only [List.reverse_append, roleBehind?_append] at this
    exact Option.some.inj this
  subst hr
  exact ⟨rfl, rfl, String.toList_inj.mp (List.append_cancel_right hrest)⟩

/-! ## The laws -/

/-- Two artifacts have one name only if they belong to one method, have one role, and their
paths have the same words. So no path leads from one method, role or status code to
another, even if it spells out a role. -/
theorem artifact_names_are_uniquely_decodable (m m' : Method) (p p' : String) (r r' : Role) :
    artifactName m.name p r.text = artifactName m'.name p' r'.text ↔
      m = m' ∧ r = r' ∧ alphanumeric p = alphanumeric p' := by
  constructor
  · exact parts_eq_of_artifactName_eq
  · rintro ⟨rfl, rfl, hp⟩
    simp [artifactName, hp]

example : artifactName "GET" "/response-model/404" "Response-Model" ≠
    artifactName "GET" "/" "Response-Model-404" := by decide

end RestContract.Naming
