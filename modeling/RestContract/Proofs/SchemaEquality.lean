-- Equality of schemas. Fields and enum entries are compared in any order and thunks by their
-- numbers, and on schemas that can be in memory this is an equivalence.
import RestContract.Proofs.SchemaComponents
import RestContract.Proofs.ValueEquality

namespace RestContract.TypeSchema

open Entries (Matches matches_self)

/-- Two schemas are of one form, and the schemas in them go together. What a thunk builds is not
compared. -/
inductive SameForm (R : TypeSchema → TypeSchema → Prop) : TypeSchema → TypeSchema → Prop where
  | bare {s : TypeSchema} (h : s.isBare = true) : SameForm R s s
  | literal {v w : Json} (h : v.same w = true) : SameForm R (literal v) (literal w)
  | enum (values : List String) : SameForm R (enum values) (enum values)
  | nativeEnum {as bs : List (String × EnumValue)}
      (h : Matches (fun v w => v.same w = true) as bs) : SameForm R (nativeEnum as) (nativeEnum bs)
  | object {as bs : List (String × TypeSchema)} (h : Matches R as bs) :
      SameForm R (object as) (object bs)
  | array {a b : TypeSchema} (h : R a b) : SameForm R (array a) (array b)
  | tuple {as bs : List TypeSchema} (h : List.Forall₂ R as bs) : SameForm R (tuple as) (tuple bs)
  | union {as bs : List TypeSchema} (h : List.Forall₂ R as bs) : SameForm R (union as) (union bs)
  | discriminatedUnion (discriminator : String) {as bs : List TypeSchema}
      (h : List.Forall₂ R as bs) :
      SameForm R (discriminatedUnion discriminator as) (discriminatedUnion discriminator bs)
  | intersection {a b c d : TypeSchema} (hleft : R a c) (hright : R b d) :
      SameForm R (intersection a b) (intersection c d)
  | optional {a b : TypeSchema} (h : R a b) : SameForm R a.optional b.optional
  | nullable {a b : TypeSchema} (h : R a b) : SameForm R a.nullable b.nullable
  | lazy (thunk : Nat) (a b : TypeSchema) : SameForm R (lazy thunk a) (lazy thunk b)
  | record {a b : TypeSchema} (h : R a b) : SameForm R (record a) (record b)
  | map {a b c d : TypeSchema} (hkey : R a c) (hvalue : R b d) : SameForm R (map a b) (map c d)
  | set {a b : TypeSchema} (h : R a b) : SameForm R (set a) (set b)

theorem sameAll_iff {as bs : List TypeSchema} :
    sameAll as bs = true ↔ List.Forall₂ (fun a b => a.same b = true) as bs := by
  induction as generalizing bs with
  | nil => cases bs <;> simp [sameAll]
  | cons a as ih => cases bs <;> simp [sameAll, ih]

theorem sameFields_iff {as bs : List (String × TypeSchema)} :
    (as.length == bs.length && sameFields as bs) = true ↔
      Matches (fun a b => a.same b = true) as bs := by
  have hfound : sameFields as bs = true ↔
      ∀ e ∈ as, ∃ b, Entries.get? bs e.1 = some b ∧ e.2.same b = true := by
    induction as with
    | nil => simp [sameFields]
    | cons e as ih =>
      rw [sameFields, Bool.and_eq_true, ih, List.forall_mem_cons]
      cases Entries.get? bs e.1 <;> simp
  rw [Bool.and_eq_true, beq_iff_eq, hfound, Entries.matches_iff]

theorem same_iff {a b : TypeSchema} :
    a.same b = true ↔ SameForm (fun s t => s.same t = true) a b := by
  constructor
  · intro h
    cases a <;> cases b
    case literal.literal v w => exact .literal h
    case enum.enum as bs => exact beq_iff_eq.mp h ▸ .enum as
    case nativeEnum.nativeEnum as bs => exact .nativeEnum (Entries.same_iff.mp h)
    case object.object as bs => exact .object (sameFields_iff.mp h)
    case tuple.tuple as bs => exact .tuple (sameAll_iff.mp h)
    case union.union as bs => exact .union (sameAll_iff.mp h)
    case discriminatedUnion.discriminatedUnion d as e bs =>
      rw [same, Bool.and_eq_true, beq_iff_eq] at h
      exact h.1 ▸ .discriminatedUnion d (sameAll_iff.mp h.2)
    case intersection.intersection =>
      exact .intersection (Bool.and_eq_true_iff.mp h).1 (Bool.and_eq_true_iff.mp h).2
    case map.map => exact .map (Bool.and_eq_true_iff.mp h).1 (Bool.and_eq_true_iff.mp h).2
    case array.array => exact .array h
    case optional.optional => exact .optional h
    case nullable.nullable => exact .nullable h
    case lazy.lazy => exact beq_iff_eq.mp h ▸ .lazy _ _ _
    case record.record => exact .record h
    case set.set => exact .set h
    all_goals first | exact .bare rfl | cases h
  · intro h
    cases h with
    | bare h => cases a <;> first | rfl | cases h
    | literal h => exact h
    | enum values => exact beq_self_eq_true values
    | nativeEnum h => exact Entries.same_iff.mpr h
    | object h => exact sameFields_iff.mpr h
    | tuple h | union h => exact sameAll_iff.mpr h
    | discriminatedUnion d h =>
      exact Bool.and_eq_true_iff.mpr ⟨beq_self_eq_true d, sameAll_iff.mpr h⟩
    | intersection hleft hright => exact Bool.and_eq_true_iff.mpr ⟨hleft, hright⟩
    | map hkey hvalue => exact Bool.and_eq_true_iff.mpr ⟨hkey, hvalue⟩
    | lazy thunk => exact beq_self_eq_true thunk
    | array h | optional h | nullable h | record h | set h => exact h

theorem same_self {s : TypeSchema} (h : Everywhere IsNormal s) : s.same s = true := by
  induction h with
  | @intro s here _ ih =>
    rw [same_iff]
    cases s with
    | literal value => exact .literal (Json.same_self here)
    | enum values => exact .enum values
    | nativeEnum values => exact .nativeEnum (matches_self here.1 fun e _ => e.2.same_self)
    | object fields => exact .object (matches_self here fun e he => ih e.2 (List.mem_map_of_mem he))
    | tuple elements => exact .tuple (List.forall₂_same.mpr ih)
    | union variants => exact .union (List.forall₂_same.mpr ih)
    | discriminatedUnion d variants => exact .discriminatedUnion d (List.forall₂_same.mpr ih)
    | array element => exact .array (ih element List.mem_cons_self)
    | intersection left right =>
      exact .intersection (ih left List.mem_cons_self) (ih right (by simp [components, parts]))
    | optional inner => exact .optional (ih inner List.mem_cons_self)
    | nullable inner => exact .nullable (ih inner List.mem_cons_self)
    | lazy thunk built => exact .lazy thunk built built
    | record value => exact .record (ih value List.mem_cons_self)
    | map key value =>
      exact .map (ih key List.mem_cons_self) (ih value (by simp [components]))
    | set element => exact .set (ih element List.mem_cons_self)
    | _ => exact .bare rfl

section SameForm

variable {R S T : TypeSchema → TypeSchema → Prop} {a b c : TypeSchema}

theorem SameForm.symm (h : SameForm R a b) (ha : a.IsNormal) (hb : b.IsNormal)
    (hRS : ∀ s ∈ a.components, ∀ t ∈ b.components, R s t → S t s) : SameForm S b a := by
  cases h with
  | bare h => exact .bare h
  | literal h => exact .literal (Json.same_symm ha hb h)
  | enum values => exact .enum values
  | nativeEnum h => exact .nativeEnum (h.symm ha.1 fun _ _ _ _ => EnumValue.same_symm)
  | object h =>
    exact .object (h.symm ha fun e he f hf =>
      hRS e.2 (List.mem_map_of_mem he) f.2 (List.mem_map_of_mem hf))
  | tuple h => exact .tuple (forall₂_symm h hRS)
  | union h => exact .union (forall₂_symm h hRS)
  | discriminatedUnion d h => exact .discriminatedUnion d (forall₂_symm h hRS)
  | intersection hleft hright =>
    exact .intersection (hRS _ List.mem_cons_self _ List.mem_cons_self hleft)
      (hRS _ (List.mem_cons_of_mem _ List.mem_cons_self) _
        (List.mem_cons_of_mem _ List.mem_cons_self) hright)
  | map hkey hvalue =>
    exact .map (hRS _ List.mem_cons_self _ List.mem_cons_self hkey)
      (hRS _ (List.mem_cons_of_mem _ List.mem_cons_self) _
        (List.mem_cons_of_mem _ List.mem_cons_self) hvalue)
  | array h => exact .array (hRS _ List.mem_cons_self _ List.mem_cons_self h)
  | optional h => exact .optional (hRS _ List.mem_cons_self _ List.mem_cons_self h)
  | nullable h => exact .nullable (hRS _ List.mem_cons_self _ List.mem_cons_self h)
  | lazy thunk s t => exact .lazy thunk t s
  | record h => exact .record (hRS _ List.mem_cons_self _ List.mem_cons_self h)
  | set h => exact .set (hRS _ List.mem_cons_self _ List.mem_cons_self h)

theorem SameForm.trans (hab : SameForm R a b) (hbc : SameForm S b c)
    (h : ∀ s ∈ a.components, ∀ t u, R s t → S t u → T s u) : SameForm T a c := by
  cases hab <;> cases hbc
  case bare.bare hs _ => exact .bare hs
  case literal.literal hab _ hbc => exact .literal (Json.same_trans hab hbc)
  case enum.enum values => exact .enum values
  case nativeEnum.nativeEnum hab _ hbc =>
    exact .nativeEnum (hab.trans hbc fun _ _ _ _ => EnumValue.same_trans)
  case object.object hab _ hbc =>
    exact .object (hab.trans hbc fun e he => h e.2 (List.mem_map_of_mem he))
  case tuple.tuple hab _ hbc => exact .tuple (forall₂_trans hab hbc h)
  case union.union hab _ hbc => exact .union (forall₂_trans hab hbc h)
  case discriminatedUnion.discriminatedUnion d _ _ hab _ hbc =>
    exact .discriminatedUnion d (forall₂_trans hab hbc h)
  case intersection.intersection hl hr _ _ hl' hr' =>
    exact .intersection (h _ List.mem_cons_self _ _ hl hl')
      (h _ (List.mem_cons_of_mem _ List.mem_cons_self) _ _ hr hr')
  case map.map hk hv _ _ hk' hv' =>
    exact .map (h _ List.mem_cons_self _ _ hk hk')
      (h _ (List.mem_cons_of_mem _ List.mem_cons_self) _ _ hv hv')
  case array.array hab _ hbc => exact .array (h _ List.mem_cons_self _ _ hab hbc)
  case optional.optional hab _ hbc => exact .optional (h _ List.mem_cons_self _ _ hab hbc)
  case nullable.nullable hab _ hbc => exact .nullable (h _ List.mem_cons_self _ _ hab hbc)
  case lazy.lazy => exact .lazy _ _ _
  case record.record hab _ hbc => exact .record (h _ List.mem_cons_self _ _ hab hbc)
  case set.set hab _ hbc => exact .set (h _ List.mem_cons_self _ _ hab hbc)
  all_goals cases ‹isBare _ = true›

end SameForm

theorem same_symm {a b : TypeSchema} (ha : Everywhere IsNormal a) (hb : Everywhere IsNormal b)
    (h : a.same b = true) : b.same a = true := by
  induction ha generalizing b with
  | intro here _ ih =>
    rw [same_iff] at h ⊢
    exact h.symm here hb.here fun s hs t ht => ih s hs (hb.of_mem ht)

theorem same_trans {a b c : TypeSchema} (hab : a.same b = true) (hbc : b.same c = true) :
    a.same c = true := by
  induction a using induct generalizing b c with
  | step a ih =>
    rw [same_iff] at hab hbc ⊢
    exact hab.trans hbc fun s hs _ _ => ih s hs

end RestContract.TypeSchema
