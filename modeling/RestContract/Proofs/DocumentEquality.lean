-- Equality of values and of documents, in which the order of keys does not count. A document is
-- equal to what is read back of it exactly if no list of places in it is empty.
import RestContract.Proofs.DocumentReading

namespace RestContract

theorem map_eq_self_iff {β : Type} {f : β → β} {l : List β} :
    l.map f = l ↔ ∀ b ∈ l, f b = b := by
  have h := List.map_inj_left (l := l) (f := f) (g := id)
  rwa [List.map_id] at h

/-! ## Values -/

namespace Json

/-- The values right below a value. -/
def parts : Json → List Json
  | arr items => items
  | obj entries => Entries.values entries
  | _ => []

theorem sizeOf_lt_of_mem_parts {v p : Json} (h : p ∈ v.parts) : sizeOf p < sizeOf v := by
  cases v with
  | arr items =>
    have hlt := List.sizeOf_lt_of_mem (show p ∈ items from h)
    rw [arr.sizeOf_spec]
    omega
  | obj entries =>
    have hlt := Entries.sizeOf_lt_of_mem_values h
    rw [obj.sizeOf_spec]
    omega
  | _ => cases h

instance : HasParts Json := ⟨parts, sizeOf_lt_of_mem_parts⟩

theorem normalItems_eq (vs : List Json) : normalItems vs = vs.map normal := by
  induction vs with
  | nil => rfl
  | cons v vs ih => rw [normalItems, ih, List.map_cons]

theorem normalEntries_eq (es : List (String × Json)) :
    normalEntries es = es.map fun e => (e.1, e.2.normal) := by
  induction es with
  | nil => rfl
  | cons e es ih => rw [normalEntries, ih, List.map_cons]

theorem sameItems_iff {as bs : List Json} :
    sameItems as bs = true ↔ List.Forall₂ (fun a b => a.same b = true) as bs := by
  induction as generalizing bs with
  | nil => cases bs <;> simp [sameItems]
  | cons a as ih => cases bs <;> simp [sameItems, ih]

theorem sameEntries_iff {as bs : List (String × Json)} :
    sameEntries as bs = true ↔
      ∀ e ∈ as, ∃ b, Entries.get? bs e.1 = some b ∧ e.2.same b = true := by
  induction as with
  | nil => simp [sameEntries]
  | cons e as ih =>
    rw [sameEntries, Bool.and_eq_true, ih, List.forall_mem_cons]
    cases Entries.get? bs e.1 <;> simp

/-- The keys of an object in normal form are distinct, and the values below are in normal
form. -/
theorem normal_obj {es : List (String × Json)} (h : (obj es).normal = obj es) :
    (Entries.keys es).Nodup ∧ ∀ e ∈ es, e.2.normal = e.2 := by
  rw [normal, normalEntries_eq] at h
  have hes := obj.inj h
  have hdistinct : (Entries.keys es).Nodup := hes ▸ Entries.keys_ofPairs_nodup _
  have hkeys : (Entries.keys (es.map fun e => (e.1, e.2.normal))).Nodup := by
    rwa [Entries.keys_map_values]
  rw [Entries.ofPairs_of_nodup hkeys] at hes
  refine ⟨hdistinct, fun e he => ?_⟩
  exact congrArg Prod.snd (map_eq_self_iff.mp hes e he)

/-- An object with distinct keys is in normal form if the values below are. -/
theorem normal_obj_of_nodup {es : List (String × Json)} (hkeys : (Entries.keys es).Nodup)
    (h : ∀ e ∈ es, e.2.normal = e.2) : (obj es).normal = obj es := by
  have hvalues : es.map (fun e => (e.1, e.2.normal)) = es :=
    map_eq_self_iff.mpr fun e he => Prod.ext rfl (h e he)
  rw [normal, normalEntries_eq, hvalues, Entries.ofPairs_of_nodup hkeys]

theorem same_self {v : Json} (h : v.normal = v) : v.same v = true := by
  induction v using HasParts.induct with
  | step v ih =>
    cases v with
    | null => rfl
    | bool b => simp [same]
    | num n => cases n <;> simp [same, Number.same, Double.same]
    | str s => simp [same]
    | arr items =>
      rw [normal, normalItems_eq] at h
      have hitems := map_eq_self_iff.mp (arr.inj h)
      rw [same, sameItems_iff, List.forall₂_same]
      exact fun v hv => ih v hv (hitems v hv)
    | obj es =>
      obtain ⟨hdistinct, hvalues⟩ := normal_obj h
      rw [same, Bool.and_eq_true, sameEntries_iff]
      refine ⟨beq_self_eq_true _, fun e he => ?_⟩
      exact ⟨e.2, (Entries.get?_eq_some_iff hdistinct).mpr he,
        ih e.2 (List.mem_map_of_mem he) (hvalues e he)⟩

end Json

/-! ## Documents -/

namespace Document

theorem sameAll_iff {as bs : List Document} :
    sameAll as bs = true ↔ List.Forall₂ (fun a b => a.same b = true) as bs := by
  induction as generalizing bs with
  | nil => cases bs <;> simp [sameAll]
  | cons a as ih => cases bs <;> simp [sameAll, ih]

theorem sameProperties_iff {as bs : List (String × Document)} :
    sameProperties as bs = true ↔
      ∀ e ∈ as, ∃ b, Entries.get? bs e.1 = some b ∧ e.2.same b = true := by
  induction as with
  | nil => simp [sameProperties]
  | cons e as ih =>
    rw [sameProperties, Bool.and_eq_true, ih, List.forall_mem_cons]
    cases Entries.get? bs e.1 <;> simp

theorem sameOptional_itemsReread_iff {items : Option (Items Document)} :
    sameOptional items (items.map itemsReread) = true ↔
      items ≠ some (.places []) ∧ ∀ p ∈ itemParts items, p.same p.reread = true := by
  rcases items with _ | d | ds
  · simp [sameOptional, itemParts]
  · simp [sameOptional, itemsReread, itemParts]
  · cases ds with
    | nil => simp [sameOptional, itemsReread]
    | cons d ds =>
      simp [sameOptional, itemsReread, itemParts, sameAll, sameAll_iff, List.forall₂_map_right_iff,
        List.forall₂_same]

theorem sameNegated_map_reread_iff {negated : Option Document} :
    sameNegated negated (negated.map reread) = true ↔
      ∀ p, negated = some p → p.same p.reread = true := by
  cases negated <;> simp [sameNegated]

theorem same_iff {d e : Document} : d.same e = true ↔
    d.types = e.types ∧ d.format = e.format ∧ Json.sameItems d.enumValues e.enumValues = true ∧
      (d.properties.length = e.properties.length ∧
        sameProperties d.properties e.properties = true) ∧
      d.required = e.required ∧ sameOptional d.items e.items = true ∧ d.minItems = e.minItems ∧
      sameAll d.oneOf e.oneOf = true ∧ sameAll d.allOf e.allOf = true ∧
      sameNegated d.negated e.negated = true := by
  obtain ⟨types, format, enumValues, properties, required, items, minItems, oneOf, allOf,
    negated⟩ := d
  simp only [same, Bool.and_eq_true, beq_iff_eq, and_assoc]

theorem hasEmptyPlaces_eq_false_iff {d : Document} :
    d.hasEmptyPlaces = false ↔ d.items ≠ some (.places []) := by
  unfold hasEmptyPlaces
  split <;> simp_all

/-- A document is equal to what is read back if its parts are, and if its list of places is not
empty. -/
theorem same_reread_iff_of_proper {d : Document} (hd : d.Proper) :
    d.same d.reread = true ↔
      d.hasEmptyPlaces = false ∧ ∀ p ∈ d.parts, p.same p.reread = true := by
  have hvalues : Json.sameItems d.enumValues d.enumValues = true := by
    rw [Json.sameItems_iff, List.forall₂_same]
    exact fun v hv => Json.same_self (hd.normal v hv)
  have hproperties : sameProperties d.properties (d.properties.map fun p => (p.1, p.2.reread)) =
      true ↔ ∀ e ∈ d.properties, e.2.same e.2.reread = true := by
    rw [sameProperties_iff]
    refine forall₂_congr fun e he => ?_
    have hkeys : (Entries.keys (d.properties.map fun p => (p.1, p.2.reread))).Nodup := by
      rw [Entries.keys_map_values]
      exact hd.distinct
    have hfound : Entries.get? (d.properties.map fun p => (p.1, p.2.reread)) e.1 =
        some e.2.reread := by
      rw [Entries.get?_eq_some_iff hkeys]
      exact List.mem_map_of_mem (f := fun p => (p.1, p.2.reread)) he
    simp [hfound]
  rw [same_iff, reread_eq, hasEmptyPlaces_eq_false_iff, forall_mem_parts_iff]
  simp only [hvalues, hproperties, sameOptional_itemsReread_iff, sameNegated_map_reread_iff,
    sameAll_iff, List.forall₂_map_right_iff, List.forall₂_same, List.length_map, true_and]
  tauto

theorem same_reread_iff {d : Document} (h : ∀ e ∈ HasParts.preorder d, e.Proper) :
    d.same d.reread = true ↔ ∀ e ∈ HasParts.preorder d, e.hasEmptyPlaces = false :=
  HasParts.iff_forall_mem_preorder fun e he => same_reread_iff_of_proper (h e he)

/-! ### Documents that stay as they are -/

theorem map_itemsReread_eq_self_iff {items : Option (Items Document)} :
    items.map itemsReread = items ↔
      items ≠ some (.places []) ∧ ∀ p ∈ itemParts items, p.reread = p := by
  rcases items with _ | d | ds
  · simp [itemParts]
  · simp [itemsReread, itemParts]
  · cases ds with
    | nil => simp [itemsReread]
    | cons d ds => simp [itemsReread, itemParts, map_eq_self_iff]

theorem map_reread_eq_self_iff {negated : Option Document} :
    negated.map reread = negated ↔ ∀ p, negated = some p → p.reread = p := by
  cases negated <;> simp

/-- A document stays as it is if its parts do, and if its list of places is not empty. -/
theorem reread_eq_self_iff_of_parts {d : Document} :
    d.reread = d ↔ d.hasEmptyPlaces = false ∧ ∀ p ∈ d.parts, p.reread = p := by
  rw [reread_eq, hasEmptyPlaces_eq_false_iff, forall_mem_parts_iff]
  obtain ⟨types, format, enumValues, properties, required, items, minItems, oneOf, allOf,
    negated⟩ := d
  simp only [mk.injEq, true_and, map_eq_self_iff, Prod.ext_iff, map_itemsReread_eq_self_iff,
    map_reread_eq_self_iff]
  tauto

theorem reread_eq_self_iff (d : Document) :
    d.reread = d ↔ ∀ e ∈ HasParts.preorder d, e.hasEmptyPlaces = false :=
  HasParts.iff_forall_mem_preorder (Q := fun e : Document => e.reread = e) fun _ _ =>
    reread_eq_self_iff_of_parts

end Document

end RestContract
