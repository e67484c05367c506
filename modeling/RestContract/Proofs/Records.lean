-- The laws of records in JSON. A record is written field by field, and some fields are left
-- out. What was written is found again under the name of its field, and a field that was left
-- out is read as its default.
import RestContract.Json.Shape
import RestContract.Proofs.Matching

namespace RestContract.Shape

open Entries (SameKey)

variable {α β : Type}

/-! ## Writing -/

/-- The entries of a record. A field without a value is left out. -/
def written (slots : Entries String (Option Json)) : Fields :=
  slots.filterMap fun s => s.2.map (s.1, ·)

/-- A container, unless it is empty. -/
def filled : Json → Option Json
  | .arr [] | .obj [] => none
  | v => some v

theorem unlessEmpty_eq (name : String) (v : Json) :
    Json.unlessEmpty name v = written [(name, filled v)] := by
  cases v with
  | arr items => cases items <;> rfl
  | obj entries => cases entries <;> rfl
  | _ => rfl

theorem given_eq (name : String) (write : α → Json) (o : Option α) :
    Json.given name write o = written [(name, o.map write)] := by
  cases o <;> rfl

theorem written_append (ss ts : Entries String (Option Json)) :
    written ss ++ written ts = written (ss ++ ts) := (List.filterMap_append ..).symm

theorem keys_written_sublist (slots : Entries String (Option Json)) :
    (Entries.keys (written slots)).Sublist (Entries.keys slots) := by
  induction slots with
  | nil => exact .slnil
  | cons s slots ih =>
    obtain ⟨name, v⟩ := s
    cases v with
    | none => exact ih.cons name
    | some v => exact ih.cons_cons name

/-- A field is found exactly if it was not left out. -/
theorem get?_written {slots : Entries String (Option Json)} (h : (Entries.keys slots).Nodup)
    (name : String) : Entries.get? (written slots) name = (Entries.get? slots name).join := by
  induction slots with
  | nil => rfl
  | cons s slots ih =>
    obtain ⟨k, v⟩ := s
    obtain ⟨hnew, hrest⟩ := List.nodup_cons.mp h
    have hnone : Entries.get? (written slots) k = none := by
      rw [Entries.get?_eq_none_iff, ← Bool.not_eq_true, ← Entries.mem_keys_iff]
      exact fun hk => hnew ((keys_written_sublist slots).subset hk)
    have htail := ih hrest
    unfold Entries.get? at hnone htail ⊢
    by_cases hk : name = k
    · subst hk
      rw [List.lookup_cons_self]
      cases v with
      | none => exact hnone
      | some v => exact List.lookup_cons_self
    · have hne : (name == k) = false := beq_eq_false_iff_ne.mpr hk
      simp only [List.lookup_cons, hne, ← htail]
      cases v with
      | none => rfl
      | some v => simp only [written, List.filterMap_cons, Option.map_some, List.lookup_cons, hne]

/-! ## Reading -/

/-- A record is read as the fields that were written. -/
theorem fields_written {slots : Entries String (Option Json)}
    (h : (Entries.keys slots).Nodup) (closed : Bool) :
    fields (Entries.keys slots) closed (.obj (written slots)) = some (written slots) := by
  have hkeys := keys_written_sublist slots
  have hknown : (written slots).filter (fun e => (Entries.keys slots).contains e.1) =
      written slots := by
    rw [List.filter_eq_self]
    intro e he
    exact List.contains_iff_mem.mpr (hkeys.subset (List.mem_map_of_mem he))
  have honce : (Entries.keys (written slots)).eraseDups = Entries.keys (written slots) :=
    eraseDups_of_nodup (h.sublist hkeys)
  simp only [fields, objectFields, hknown, honce]
  simp

theorem mapM_eq_some_map {γ : Type} {g : α → Option γ} {f : α → γ} {l : List α}
    (h : ∀ a ∈ l, g a = some (f a)) : l.mapM g = some (l.map f) := by
  induction l with
  | nil => rfl
  | cons a l ih =>
    obtain ⟨ha, hl⟩ := List.forall_mem_cons.mp h
    simp [List.mapM_cons, ha, ih hl]

/-- A map with distinct keys is read value by value. -/
theorem map_obj_eq_some_iff {item : Shape α} {es : Entries String Json} {as : Entries String α}
    (h : (Entries.keys es).Nodup) : map item (.obj es) = some as ↔
      List.Forall₂ (SameKey fun v a => item v = some a) es as := by
  have hentry : ∀ (e : String × Json) (a : String × α),
      (item e.2).map (e.1, ·) = some a ↔ SameKey (fun v a => item v = some a) e a := by
    rintro e ⟨k, a⟩
    simp only [SameKey, Option.map_eq_some_iff, Prod.mk.injEq]
    constructor
    · rintro ⟨x, hx, rfl, rfl⟩
      exact ⟨rfl, hx⟩
    · rintro ⟨rfl, hx⟩
      exact ⟨a, hx, rfl, rfl⟩
  have hpairs : ∀ ps, es.mapM (fun e => (item e.2).map (e.1, ·)) = some ps ↔
      List.Forall₂ (SameKey fun v a => item v = some a) es ps := by
    intro ps
    rw [mapM_eq_some_iff]
    simp only [hentry]
  rw [map, Option.map_eq_some_iff]
  constructor
  · rintro ⟨ps, hps, rfl⟩
    have haligned := (hpairs ps).mp hps
    rwa [Entries.ofPairs_of_nodup (Entries.keys_eq_of_forall₂ haligned ▸ h)]
  · intro haligned
    exact ⟨as, (hpairs as).mpr haligned,
      Entries.ofPairs_of_nodup (Entries.keys_eq_of_forall₂ haligned ▸ h)⟩

section Fields

variable {fs : Fields} {name : String} {write : α → Json} {read : α → β}

/-- A field that may be absent is read as it was written. -/
theorem maybe_of_given {shape : Shape β} {o : Option α}
    (hfound : Entries.get? fs name = o.map write)
    (hread : ∀ a, o = some a → write a ≠ .null ∧ shape (write a) = some (read a)) :
    maybe fs name shape = some (o.map read) := by
  unfold maybe withDefault
  rw [hfound]
  cases o with
  | none => rfl
  | some a =>
    obtain ⟨hnull, hshape⟩ := hread a rfl
    show optional shape (write a) = _
    unfold optional
    split
    · contradiction
    · rw [hshape]
      rfl

/-- A list that was left out is read as the empty list. -/
theorem withDefault_of_list {item : Shape β} {l : List α}
    (hfound : Entries.get? fs name = filled (.arr (l.map write)))
    (hread : ∀ a ∈ l, item (write a) = some (read a)) :
    withDefault fs name [] (list item) = some (l.map read) := by
  unfold withDefault
  rw [hfound]
  cases l with
  | nil => rfl
  | cons a l =>
    show ((a :: l).map write).mapM item = _
    rw [List.mapM_map]
    exact mapM_eq_some_map hread

/-- Entries that were left out are read as no entries. -/
theorem withDefault_of_map {item : Shape β} {es : Entries String α}
    (hfound : Entries.get? fs name = filled (.obj (es.map fun e => (e.1, write e.2))))
    (honce : (Entries.keys es).Nodup)
    (hread : ∀ e ∈ es, item (write e.2) = some (read e.2)) :
    withDefault fs name [] (map item) = some (es.map fun e => (e.1, read e.2)) := by
  unfold withDefault
  rw [hfound]
  cases es with
  | nil => rfl
  | cons e es =>
    have hitems : ((e :: es).map fun e => (e.1, write e.2)).mapM
        (fun e => (item e.2).map (e.1, ·)) = some ((e :: es).map fun e => (e.1, read e.2)) := by
      rw [List.mapM_map]
      refine mapM_eq_some_map fun e he => ?_
      simp [hread e he]
    have hkeys : (Entries.keys ((e :: es).map fun e => (e.1, read e.2))).Nodup := by
      rwa [Entries.keys_map_values]
    show Option.map _ (List.mapM _ _) = _
    rw [hitems, Option.map_some, Entries.ofPairs_of_nodup hkeys]

end Fields

end RestContract.Shape
