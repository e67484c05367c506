-- The keys of whole numbers. A whole number is looked up under its decimal numeral, whether it is
-- an integer or a floating point number, so two of them share a key only if they are equal.
-- Floating point numbers past the signed integers are the exception: they share one key.
import Mathlib.Algebra.Order.Field.Power
import Mathlib.Data.List.Basic
import Mathlib.Data.Rat.Cast.Order
import Mathlib.Tactic.IntervalCases
import Mathlib.Tactic.NormNum
import RestContract.Schema.Type
import RestContract.Numeral.Literal

namespace RestContract

/-! ## Numerals -/

/-- The digits of a natural number, without a zero in front. -/
structure Digits.Write (digits : List Char) (n : Nat) : Prop where
  ne_nil : digits ≠ []
  isDigit : ∀ c ∈ digits, c.isDigit
  no_zero_in_front : digits.head? = some '0' → digits = ['0']
  value_eq : Digits.value digits = n

/-- What stands in front of the digits of a number. -/
def signOf (n : Int) : List Char := if n < 0 then ['-'] else []

/-- The text is the decimal numeral of the number. -/
def IsNumeral (s : String) (n : Int) : Prop :=
  ∃ digits, Digits.Write digits n.natAbs ∧ s.toList = signOf n ++ digits

namespace Digits

theorem head?_toDigits_ne_zero {n : Nat} (h : 0 < n) : (Nat.toDigits 10 n).head? ≠ some '0' := by
  induction n using Nat.strong_induction_on with
  | _ n ih =>
    rcases Nat.lt_or_ge n 10 with hlt | hge
    · rw [Nat.toDigits_of_lt_base hlt]
      interval_cases n <;> decide
    · rw [Nat.toDigits_of_base_le (by decide) hge,
        List.head?_append_of_ne_nil _ Nat.toDigits_ne_nil]
      exact ih (n / 10) (by omega) (by omega)

theorem write_toDigits (n : Nat) : Write (Nat.toDigits 10 n) n where
  ne_nil := Nat.toDigits_ne_nil
  isDigit _ := Nat.isDigit_of_mem_toDigits (by decide) (by decide)
  no_zero_in_front h := by
    rcases Nat.eq_zero_or_pos n with rfl | hpos
    · rfl
    · exact absurd h (head?_toDigits_ne_zero hpos)
  value_eq := Nat.ofDigitChars_toDigits (by decide) (by decide)

/-- Digits never begin with a sign. -/
theorem Write.head?_ne {digits : List Char} {n : Nat} (h : Write digits n) :
    digits.head? ≠ some '-' := by
  intro hhead
  obtain ⟨rest, rfl⟩ := List.head?_eq_some_iff.mp hhead
  exact absurd (h.isDigit '-' List.mem_cons_self) (by decide)

end Digits

theorem isNumeral_toString (n : Int) : IsNumeral (toString n) n := by
  refine ⟨Nat.toDigits 10 n.natAbs, Digits.write_toDigits _, ?_⟩
  cases n with
  | ofNat m => exact Nat.toList_repr
  | negSucc m =>
    show ("-" ++ m.succ.repr).toList = _
    rw [String.toList_append, Nat.toList_repr, signOf, if_pos (Int.negSucc_lt_zero m)]
    rfl

theorem IsNumeral.negative_iff {s : String} {n : Int} (h : IsNumeral s n) :
    n < 0 ↔ s.toList.head? = some '-' := by
  obtain ⟨digits, hdigits, hs⟩ := h
  rw [hs, signOf]
  split
  case isTrue hn => simp [hn]
  case isFalse hn => simp [hn, hdigits.head?_ne]

/-- A text is the numeral of one number at most. -/
theorem IsNumeral.unique {s : String} {m n : Int} (hm : IsNumeral s m) (hn : IsNumeral s n) :
    m = n := by
  have hsign : m < 0 ↔ n < 0 := hm.negative_iff.trans hn.negative_iff.symm
  obtain ⟨ds, hds, hs⟩ := hm
  obtain ⟨es, hes, hs'⟩ := hn
  have heq : signOf m = signOf n := by simp only [signOf, hsign]
  rw [hs, heq] at hs'
  obtain rfl := List.append_cancel_left hs'
  have habs : m.natAbs = n.natAbs := hds.value_eq.symm.trans hes.value_eq
  omega

/-! ## The values of floating point numbers -/

namespace Double

variable {d : Double}

/-- The magnitude that a pattern stands for. -/
def magnitude (d : Double) : ℚ := d.significand * (2 : ℚ) ^ d.power

/-- The number that a pattern stands for. -/
def value (d : Double) : ℚ := if d.negative then -d.magnitude else d.magnitude

theorem magnitude_nonneg (d : Double) : 0 ≤ d.magnitude :=
  mul_nonneg (Nat.cast_nonneg _) (zpow_nonneg (by decide) _)

theorem ratio_snd_pos (d : Double) : 0 < d.ratio.2 := by
  show 0 < 1 <<< _
  rw [Nat.shiftLeft_eq, Nat.one_mul]
  exact Nat.two_pow_pos _

theorem magnitude_eq_ratio (d : Double) : d.magnitude * d.ratio.2 = d.ratio.1 := by
  show _ * ((1 <<< (-d.power).toNat : Nat) : ℚ) = ((d.significand <<< d.power.toNat : Nat) : ℚ)
  rw [Nat.shiftLeft_eq, Nat.shiftLeft_eq, Nat.one_mul, Nat.cast_mul, Nat.cast_pow, Nat.cast_pow,
    magnitude, mul_assoc, Nat.cast_ofNat, ← zpow_natCast, ← zpow_natCast,
    ← zpow_add₀ two_ne_zero]
  congr 2
  omega

theorem abs_value (d : Double) : |d.value| = d.magnitude := by
  rw [value]
  split
  · rw [abs_neg, abs_of_nonneg d.magnitude_nonneg]
  · exact abs_of_nonneg d.magnitude_nonneg

/-- The ratio of a number that stands for a whole one is that one over one. -/
theorem ratio_of_value {n : Int} (h : d.value = n) : d.ratio.1 = n.natAbs * d.ratio.2 := by
  have habs : d.magnitude = n.natAbs := by rw [← abs_value, h, Nat.cast_natAbs, Int.cast_abs]
  have hratio := d.magnitude_eq_ratio
  rw [habs] at hratio
  exact_mod_cast hratio.symm

theorem isWhole_of_value {n : Int} (hd : d.isFinite) (h : d.value = n) : d.isWhole := by
  rw [isWhole, hd, ratio_of_value h, Nat.mul_mod_left]
  rfl

theorem truncate_of_value {n : Int} (h : d.value = n) : d.truncate = n := by
  have hdiv : d.ratio.1 / d.ratio.2 = n.natAbs := by
    rw [ratio_of_value h, Nat.mul_div_cancel _ d.ratio_snd_pos]
  have hnonneg := d.magnitude_nonneg
  rw [value] at h
  rw [truncate, hdiv]
  split at h
  case isTrue hneg =>
    have hn : (n : ℚ) ≤ 0 := h ▸ neg_nonpos.mpr hnonneg
    have hn' : n ≤ 0 := by exact_mod_cast hn
    simp only [hneg, if_true]
    omega
  case isFalse hneg =>
    have hn : (0 : ℚ) ≤ n := h ▸ hnonneg
    have hn' : 0 ≤ n := by exact_mod_cast hn
    simp only [hneg, Bool.false_eq_true, if_false]
    omega

end Double

/-! ## Keys -/

/-- The JSON number stands for the whole number. -/
def Number.StandsFor : Number → Int → Prop
  | .int m, n => m = n
  | .float d, n => d.isFinite ∧ d.value = n

/-- The whole number has 64 bits, with a sign or without. -/
def HasBits64 (n : Int) : Prop := minInt64 ≤ n ∧ n ≤ maxUInt64

instance (n : Int) : Decidable (HasBits64 n) := inferInstanceAs (Decidable (_ ∧ _))

/-- A floating point number past the whole numbers with a sign. -/
def Number.IsPastSigned : Number → Int → Prop
  | .int _, _ => False
  | .float _, n => maxInt64 < n

instance : (x : Number) → (n : Int) → Decidable (x.IsPastSigned n)
  | .int _, _ => inferInstanceAs (Decidable False)
  | .float _, n => inferInstanceAs (Decidable (maxInt64 < n))

namespace Number

variable {x : Number} {n : Int}

theorem key_of_standsFor (h : x.StandsFor n) (hn : HasBits64 n) (hpast : ¬ x.IsPastSigned n) :
    x.key = toString n := by
  cases x with
  | int m =>
    obtain rfl : m = n := h
    rfl
  | float d =>
    have hle : n ≤ maxInt64 := Int.not_lt.mp hpast
    have hclamp : clampInt64 n = n := by rw [clampInt64, min_eq_left hle, max_eq_right hn.1]
    rw [key, if_pos (Double.isWhole_of_value h.1 h.2), Double.truncate_of_value h.2, hclamp]

/-- Past the signed whole numbers, every floating point number is looked up as the last one. -/
theorem key_of_isPastSigned (h : x.StandsFor n) (hpast : x.IsPastSigned n) :
    x.key = toString maxInt64 := by
  cases x with
  | int m => exact hpast.elim
  | float d =>
    have hlt : maxInt64 < n := hpast
    have hclamp : clampInt64 n = maxInt64 := by
      rw [clampInt64, min_eq_right hlt.le]
      rfl
    rw [key, if_pos (Double.isWhole_of_value h.1 h.2), Double.truncate_of_value h.2, hclamp]

theorem isNumeral_key_iff (h : x.StandsFor n) (hn : HasBits64 n) :
    IsNumeral x.key n ↔ ¬ x.IsPastSigned n := by
  constructor
  · intro hkey hpast
    have hlast : IsNumeral x.key maxInt64 :=
      key_of_isPastSigned h hpast ▸ isNumeral_toString maxInt64
    have hsame : n = maxInt64 := hkey.unique hlast
    cases x with
    | int _ => exact hpast
    | float _ => exact absurd hsame (Int.ne_of_gt hpast)
  · intro hpast
    exact key_of_standsFor h hn hpast ▸ isNumeral_toString n

end Number

/-- A whole number is looked up under its numeral exactly if it is not a floating point number
past the signed ones, which are looked up as the last signed one. The others share a key only with
the number they are equal to, whatever its form. -/
theorem whole_numbers_up_to_the_last_signed_one_have_their_numerals_as_keys {x : Number} {n : Int}
    (hx : x.StandsFor n) (hn : HasBits64 n) :
    (IsNumeral (EnumValue.number x).key n ↔ ¬ x.IsPastSigned n) ∧
      (x.IsPastSigned n → IsNumeral (EnumValue.number x).key maxInt64) ∧
      ∀ y m, y.StandsFor m → HasBits64 m → ¬ x.IsPastSigned n → ¬ y.IsPastSigned m →
        ((EnumValue.number x).key = (EnumValue.number y).key ↔ n = m) := by
  simp only [EnumValue.key]
  refine ⟨Number.isNumeral_key_iff hx hn, ?_, ?_⟩
  · intro hpast
    exact Number.key_of_isPastSigned hx hpast ▸ isNumeral_toString maxInt64
  · intro y m hy hm hxpast hypast
    constructor
    · intro hkeys
      have hkey : IsNumeral x.key n := (Number.isNumeral_key_iff hx hn).mpr hxpast
      have hkey' : IsNumeral x.key m := hkeys ▸ (Number.isNumeral_key_iff hy hm).mpr hypast
      exact hkey.unique hkey'
    · rintro rfl
      rw [Number.key_of_standsFor hx hn hxpast, Number.key_of_standsFor hy hm hypast]

theorem two_has_one_key_in_both_forms :
    ∃ x : Number, x = .float ⟨0x4000000000000000⟩ ∧ x.StandsFor 2 ∧ HasBits64 2 ∧
      IsNumeral (EnumValue.number x).key 2 ∧
      (EnumValue.number x).key = (EnumValue.number (.int 2)).key := by
  have hfloat : (Number.float ⟨0x4000000000000000⟩).StandsFor 2 := by
    refine ⟨by decide, ?_⟩
    have hsignificand : Double.significand ⟨0x4000000000000000⟩ = 2 ^ 52 := by decide
    have hpower : Double.power ⟨0x4000000000000000⟩ = -51 := by decide
    have hnegative : Double.negative ⟨0x4000000000000000⟩ = false := by decide
    norm_num [Double.value, Double.magnitude, hsignificand, hpower, hnegative]
  obtain ⟨hkey, -, hshared⟩ :=
    whole_numbers_up_to_the_last_signed_one_have_their_numerals_as_keys hfloat (by decide)
  exact ⟨_, rfl, hfloat, by decide, hkey.mpr (by decide),
    (hshared (.int 2) 2 rfl (by decide) (by decide) id).mpr rfl⟩

/-- Ten to the nineteenth is past the signed numbers: as a floating point number it has the key of
the last signed one, which is not its numeral and which is the key of another number. -/
theorem ten_to_the_nineteenth_has_the_key_of_the_last_signed_number :
    ∃ x : Number, x = .float ⟨0x43E158E460913D00⟩ ∧ x.StandsFor (10 ^ 19) ∧ HasBits64 (10 ^ 19) ∧
      ¬ IsNumeral (EnumValue.number x).key (10 ^ 19) ∧
      (EnumValue.number x).key = (EnumValue.number (.int maxInt64)).key := by
  have hstands : (Number.float ⟨0x43E158E460913D00⟩).StandsFor (10 ^ 19) := by
    refine ⟨by decide, ?_⟩
    have hsignificand : Double.significand ⟨0x43E158E460913D00⟩ = 4882812500000000 := by decide
    have hpower : Double.power ⟨0x43E158E460913D00⟩ = 11 := by decide
    have hnegative : Double.negative ⟨0x43E158E460913D00⟩ = false := by decide
    norm_num [Double.value, Double.magnitude, hsignificand, hpower, hnegative]
  have hpast : (Number.float ⟨0x43E158E460913D00⟩).IsPastSigned (10 ^ 19) := by decide
  refine ⟨_, rfl, hstands, by decide, ?_, Number.key_of_isPastSigned hstands hpast⟩
  exact fun h => (Number.isNumeral_key_iff hstands (by decide)).mp h hpast

end RestContract
