-- Equality of numbers, of values and of enum values. The keys of an object are compared in any
-- order and the two zeros are one number. On values in normal form this is an equivalence, and
-- equal enum values are looked up under one key.
import RestContract.Proofs.DocumentEquality
import RestContract.Proofs.Matching
import RestContract.Schema.Type

namespace RestContract

open Entries (Matches)

/-! ## Numbers and values -/

theorem Double.same_symm {a b : Double} (h : a.same b = true) : b.same a = true := by
  simp only [same, Bool.or_eq_true, beq_iff_eq, Bool.and_eq_true] at h ⊢
  exact h.imp Eq.symm And.symm

theorem Double.same_trans {a b c : Double} (hab : a.same b = true) (hbc : b.same c = true) :
    a.same c = true := by
  simp only [same, Bool.or_eq_true, beq_iff_eq, Bool.and_eq_true] at hab hbc ⊢
  rcases hab with rfl | ⟨ha, hb⟩
  · exact hbc
  · rcases hbc with rfl | ⟨-, hc⟩
    · exact .inr ⟨ha, hb⟩
    · exact .inr ⟨ha, hc⟩

theorem Number.same_self (n : Number) : n.same n = true := by
  cases n <;> simp [same, Double.same]

theorem Number.same_symm {m n : Number} (h : m.same n = true) : n.same m = true := by
  cases m <;> cases n
  · exact beq_iff_eq.mpr (beq_iff_eq.mp h).symm
  · cases h
  · cases h
  · exact Double.same_symm h

theorem Number.same_trans {l m n : Number} (hlm : l.same m = true) (hmn : m.same n = true) :
    l.same n = true := by
  cases l <;> cases m <;> cases n
  · exact beq_iff_eq.mpr ((beq_iff_eq.mp hlm).trans (beq_iff_eq.mp hmn))
  all_goals first | cases hlm | cases hmn | exact Double.same_trans hlm hmn

/-- A zero is looked up without its sign. -/
theorem Number.key_of_isZero {d : Double} (h : d.isZero = true) : (float d).key = "0" := by
  obtain ⟨hexponent, hfraction⟩ := Bool.and_eq_true_iff.mp h
  rw [beq_iff_eq] at hexponent hfraction
  have hnum : d.ratio.1 = 0 := by
    simp [Double.ratio, Double.significand, hexponent, hfraction]
  have hwhole : d.isWhole = true := by simp [Double.isWhole, Double.isFinite, hexponent, hnum]
  have htruncate : d.truncate = 0 := by simp [Double.truncate, hnum]
  rw [key, if_pos hwhole, htruncate]
  rfl

theorem Number.key_eq_of_same {m n : Number} (h : m.same n = true) : m.key = n.key := by
  cases m <;> cases n
  case int.int m n =>
    obtain rfl : m = n := beq_iff_eq.mp h
    rfl
  case float.float a b =>
    rw [same, Double.same, Bool.or_eq_true, beq_iff_eq, Bool.and_eq_true] at h
    rcases h with rfl | ⟨ha, hb⟩
    · rfl
    · rw [key_of_isZero ha, key_of_isZero hb]
  all_goals cases h

namespace Json

/-- Two values are of one form, and what stands in them goes together. -/
inductive SameForm (R : Json → Json → Prop) : Json → Json → Prop where
  | null : SameForm R null null
  | bool (b : Bool) : SameForm R (bool b) (bool b)
  | num {m n : Number} (h : m.same n = true) : SameForm R (num m) (num n)
  | str (s : String) : SameForm R (str s) (str s)
  | arr {as bs : List Json} (h : List.Forall₂ R as bs) : SameForm R (arr as) (arr bs)
  | obj {as bs : List (String × Json)} (h : Matches R as bs) : SameForm R (obj as) (obj bs)

theorem same_iff {v w : Json} :
    v.same w = true ↔ SameForm (fun a b => a.same b = true) v w := by
  constructor
  · intro h
    cases v <;> cases w
    case null.null => exact .null
    case bool.bool b c => exact beq_iff_eq.mp h ▸ .bool b
    case num.num m n => exact .num h
    case str.str s t => exact beq_iff_eq.mp h ▸ .str s
    case arr.arr as bs => exact .arr (sameItems_iff.mp h)
    case obj.obj as bs =>
      rw [same, Bool.and_eq_true, beq_iff_eq, sameEntries_iff] at h
      exact .obj ((Entries.matches_iff ..).mpr h)
    all_goals cases h
  · intro h
    cases h with
    | null => rfl
    | bool b => exact beq_self_eq_true b
    | num h => exact h
    | str s => exact beq_self_eq_true s
    | arr h => exact sameItems_iff.mpr h
    | obj h =>
      rw [same, Bool.and_eq_true, beq_iff_eq, sameEntries_iff]
      exact (Entries.matches_iff ..).mp h

theorem same_symm {v w : Json} (hv : v.normal = v) (hw : w.normal = w) (h : v.same w = true) :
    w.same v = true := by
  induction v using HasParts.induct generalizing w with
  | step v ih =>
    rw [same_iff] at h ⊢
    cases h with
    | null => exact .null
    | bool b => exact .bool b
    | num h => exact .num (Number.same_symm h)
    | str s => exact .str s
    | arr h =>
      rw [normal, normalItems_eq] at hv hw
      have has := map_eq_self_iff.mp (arr.inj hv)
      have hbs := map_eq_self_iff.mp (arr.inj hw)
      exact .arr (forall₂_symm h fun a ha b hb => ih a ha (has a ha) (hbs b hb))
    | obj h =>
      obtain ⟨hkeys, has⟩ := normal_obj hv
      obtain ⟨-, hbs⟩ := normal_obj hw
      exact .obj (h.symm hkeys fun e he f hf =>
        ih e.2 (List.mem_map_of_mem he) (has e he) (hbs f hf))

theorem same_trans {u v w : Json} (huv : u.same v = true) (hvw : v.same w = true) :
    u.same w = true := by
  induction u using HasParts.induct generalizing v w with
  | step u ih =>
    rw [same_iff] at huv hvw ⊢
    cases huv with
    | null => exact hvw
    | bool b => exact hvw
    | num huv => cases hvw with | num hvw => exact .num (Number.same_trans huv hvw)
    | str s => exact hvw
    | arr huv =>
      cases hvw with
      | arr hvw => exact .arr (forall₂_trans huv hvw fun a ha _ _ => ih a ha)
    | obj huv =>
      cases hvw with
      | obj hvw => exact .obj (huv.trans hvw fun e he _ _ => ih e.2 (List.mem_map_of_mem he))

end Json

/-! ## Values of compiled enums -/

namespace EnumValue

theorem same_toJson (v w : EnumValue) : v.toJson.same w.toJson = v.same w := by
  cases v <;> cases w <;> rfl

theorem same_self (v : EnumValue) : v.same v = true := by
  cases v with
  | text s => exact beq_self_eq_true s
  | number n => exact n.same_self

theorem same_symm {v w : EnumValue} (h : v.same w = true) : w.same v = true := by
  cases v <;> cases w
  · exact beq_iff_eq.mpr (beq_iff_eq.mp h).symm
  · cases h
  · cases h
  · exact Number.same_symm h

theorem same_trans {u v w : EnumValue} (huv : u.same v = true) (hvw : v.same w = true) :
    u.same w = true := by
  rw [← same_toJson] at huv hvw ⊢
  exact Json.same_trans huv hvw

theorem key_eq_of_same {v w : EnumValue} (h : v.same w = true) : v.key = w.key := by
  cases v <;> cases w
  · exact beq_iff_eq.mp h
  · cases h
  · cases h
  · exact Number.key_eq_of_same h

theorem isNumber_eq_of_same {v w : EnumValue} (h : v.same w = true) : v.isNumber = w.isNumber := by
  cases v <;> cases w <;> first | rfl | cases h

end EnumValue

end RestContract
