-- The laws of documents that are written and read again. A document comes back as it was, but
-- for lists of places that are empty: such a list is read as the document that admits anything.
import RestContract.Proofs.Parts
import RestContract.Proofs.Records
import RestContract.Schema.Document

namespace RestContract

/-! ## How deep values nest -/

namespace Json

theorem depth_le_of_mem_items {v : Json} {items : List Json} (h : v ∈ items) :
    v.depth ≤ depthItems items := by
  induction items with
  | nil => cases h
  | cons w items ih =>
    rw [depthItems]
    rcases List.mem_cons.mp h with rfl | hrest
    · exact Nat.le_max_left _ _
    · exact Nat.le_trans (ih hrest) (Nat.le_max_right _ _)

theorem depth_le_of_mem_entries {k : String} {v : Json} {entries : List (String × Json)}
    (h : (k, v) ∈ entries) : v.depth ≤ depthEntries entries := by
  induction entries with
  | nil => cases h
  | cons e entries ih =>
    rw [depthEntries]
    rcases List.mem_cons.mp h with rfl | hrest
    · exact Nat.le_max_left _ _
    · exact Nat.le_trans (ih hrest) (Nat.le_max_right _ _)

end Json

namespace Document

open Shape

/-! ## Parts -/

/-- The documents in the keyword `items`. -/
def itemParts : Option (Items Document) → List Document
  | none => []
  | some (.every d) => [d]
  | some (.places ds) => ds

/-- The documents right below a document. -/
def parts (d : Document) : List Document :=
  Entries.values d.properties ++ itemParts d.items ++ d.oneOf ++ d.allOf ++ d.negated.toList

theorem sizeOf_lt_of_mem_itemParts {items : Option (Items Document)} {p : Document}
    (h : p ∈ itemParts items) : sizeOf p < sizeOf items := by
  cases items with
  | none => cases h
  | some i =>
    rw [Option.some.sizeOf_spec]
    cases i with
    | every d =>
      cases List.mem_singleton.mp h
      rw [Items.every.sizeOf_spec]
      omega
    | places ds =>
      have hlt := List.sizeOf_lt_of_mem (show p ∈ ds from h)
      rw [Items.places.sizeOf_spec]
      omega

theorem sizeOf_lt_of_mem_parts {d p : Document} (h : p ∈ d.parts) : sizeOf p < sizeOf d := by
  obtain ⟨types, format, enumValues, properties, required, items, minItems, oneOf, allOf,
    negated⟩ := d
  simp only [parts, List.mem_append, Option.mem_toList, or_assoc] at h
  rw [Document.mk.sizeOf_spec]
  rcases h with h | h | h | h | h
  · have hlt := Entries.sizeOf_lt_of_mem_values h
    omega
  · have hlt := sizeOf_lt_of_mem_itemParts h
    omega
  · have hlt := List.sizeOf_lt_of_mem h
    omega
  · have hlt := List.sizeOf_lt_of_mem h
    omega
  · cases h
    rw [Option.some.sizeOf_spec]
    omega

instance : HasParts Document := ⟨parts, sizeOf_lt_of_mem_parts⟩

theorem forall_mem_parts_iff {P : Document → Prop} {d : Document} :
    (∀ p ∈ d.parts, P p) ↔ (∀ e ∈ d.properties, P e.2) ∧ (∀ p ∈ itemParts d.items, P p) ∧
      (∀ p ∈ d.oneOf, P p) ∧ (∀ p ∈ d.allOf, P p) ∧ ∀ p, d.negated = some p → P p := by
  simp only [parts, Entries.values, List.forall_mem_append, List.forall_mem_map,
    Option.mem_toList, and_assoc]

/-! ## Writing -/

theorem allJson_eq (ds : List Document) : allJson ds = ds.map toJson := by
  induction ds with
  | nil => rfl
  | cons d ds ih => rw [allJson, ih, List.map_cons, toJson]

theorem propertiesJson_eq (ps : List (String × Document)) :
    propertiesJson ps = ps.map fun p => (p.1, p.2.toJson) := by
  induction ps with
  | nil => rfl
  | cons p ps ih => rw [propertiesJson, ih, List.map_cons, toJson]

/-- The value of the keyword `items`. -/
def itemsJson : Items Document → Json
  | .every d => d.toJson
  | .places ds => .arr (ds.map toJson)

/-- The keywords of a document, each with its value if it has one. -/
def slots (d : Document) : Entries String (Option Json) :=
  [("type", d.types.map typesJson), ("format", d.format.map .str),
    ("enum", filled (.arr d.enumValues)),
    ("properties", filled (.obj (d.properties.map fun p => (p.1, p.2.toJson)))),
    ("required", filled (.arr (d.required.map .str))), ("items", d.items.map itemsJson),
    ("minItems", d.minItems.map .nat), ("oneOf", filled (.arr (d.oneOf.map toJson))),
    ("allOf", filled (.arr (d.allOf.map toJson))), ("not", d.negated.map toJson)]

theorem itemsEntries_eq (items : Option (Items Document)) :
    itemsEntries items = written [("items", items.map itemsJson)] := by
  rcases items with _ | d | ds
  · rfl
  · rfl
  · rw [itemsEntries, allJson_eq]
    rfl

theorem negatedEntries_eq (negated : Option Document) :
    negatedEntries negated = written [("not", negated.map toJson)] := by
  cases negated <;> rfl

theorem entries_eq (d : Document) : d.entries = written d.slots := by
  obtain ⟨types, format, enumValues, properties, required, items, minItems, oneOf, allOf,
    negated⟩ := d
  rw [entries]
  simp only [given_eq, unlessEmpty_eq, itemsEntries_eq, negatedEntries_eq, written_append,
    propertiesJson_eq, allJson_eq]
  rfl

theorem keys_slots (d : Document) : Entries.keys d.slots = keywords := rfl

theorem keywords_nodup : keywords.Nodup := by decide

theorem depth_lt_of_mem_slots {d : Document} {name : String} {v : Json}
    (h : (name, some v) ∈ d.slots) : v.depth < d.toJson.depth := by
  have hmem : (name, v) ∈ d.entries := by
    rw [entries_eq, written, List.mem_filterMap]
    exact ⟨_, h, rfl⟩
  rw [toJson, Json.depth]
  exact Nat.lt_succ_of_le (Json.depth_le_of_mem_entries hmem)

theorem exists_filled_of_mem {ds : List Document} {p : Document} (h : p ∈ ds) :
    ∃ v, filled (.arr (ds.map toJson)) = some v ∧ p.toJson.depth ≤ v.depth := by
  have hle := Json.depth_le_of_mem_items (List.mem_map_of_mem (f := toJson) h)
  obtain ⟨q, qs, rfl⟩ := List.exists_cons_of_ne_nil (List.ne_nil_of_mem h)
  exact ⟨_, rfl, Nat.le_succ_of_le hle⟩

theorem exists_filled_of_mem_properties {ps : List (String × Document)} {e : String × Document}
    (h : e ∈ ps) : ∃ v, filled (.obj (ps.map fun p => (p.1, p.2.toJson))) = some v ∧
      e.2.toJson.depth ≤ v.depth := by
  have hle := Json.depth_le_of_mem_entries
    (List.mem_map_of_mem (f := fun p : String × Document => (p.1, p.2.toJson)) h)
  obtain ⟨q, qs, rfl⟩ := List.exists_cons_of_ne_nil (List.ne_nil_of_mem h)
  exact ⟨_, rfl, Nat.le_succ_of_le hle⟩

theorem depth_le_itemsJson {i : Items Document} {p : Document} (h : p ∈ itemParts (some i)) :
    p.toJson.depth ≤ (itemsJson i).depth := by
  cases i with
  | every d => exact Nat.le_of_eq (by rw [List.mem_singleton.mp h, itemsJson])
  | places ds =>
    exact Nat.le_succ_of_le (Json.depth_le_of_mem_items (List.mem_map_of_mem (f := toJson) h))

/-- Every part stands in the value of a keyword. -/
theorem exists_slot_of_mem_parts (d : Document) :
    ∀ p ∈ d.parts, ∃ name v, (name, some v) ∈ d.slots ∧ p.toJson.depth ≤ v.depth := by
  refine forall_mem_parts_iff.mpr ⟨?properties, ?items, ?oneOf, ?allOf, ?negated⟩
  case properties =>
    intro e he
    obtain ⟨v, hv, hle⟩ := exists_filled_of_mem_properties he
    exact ⟨"properties", v, by simp [slots, hv], hle⟩
  case items =>
    intro p hp
    cases hitems : d.items with
    | none => rw [hitems] at hp; cases hp
    | some i =>
      rw [hitems] at hp
      exact ⟨"items", itemsJson i, by simp [slots, hitems], depth_le_itemsJson hp⟩
  case oneOf =>
    intro p hp
    obtain ⟨v, hv, hle⟩ := exists_filled_of_mem hp
    exact ⟨"oneOf", v, by simp [slots, hv], hle⟩
  case allOf =>
    intro p hp
    obtain ⟨v, hv, hle⟩ := exists_filled_of_mem hp
    exact ⟨"allOf", v, by simp [slots, hv], hle⟩
  case negated => exact fun p hp => ⟨"not", p.toJson, by simp [slots, hp], Nat.le_refl _⟩

theorem depth_lt_of_mem_parts {d p : Document} (h : p ∈ d.parts) :
    p.toJson.depth < d.toJson.depth := by
  obtain ⟨name, v, hslot, hle⟩ := exists_slot_of_mem_parts d p h
  exact Nat.lt_of_le_of_lt hle (depth_lt_of_mem_slots hslot)

/-! ## Reading -/

/-- What holds of a document in memory, whatever is below it: its properties have distinct
names, its values are in normal form, and its number fits. -/
structure Proper (d : Document) : Prop where
  distinct : (Entries.keys d.properties).Nodup
  normal : ∀ v ∈ d.enumValues, v.normal = v
  fits : ∀ n, d.minItems = some n → n ≤ maxUInt64

/-- The document has a list of places that is empty. -/
def hasEmptyPlaces (d : Document) : Bool :=
  match d.items with
  | some (.places []) => true
  | _ => false

mutual

/-- The document that is read back. In place of an empty list of places, every item has the
document that admits anything. -/
def reread : Document → Document
  | ⟨types, format, enumValues, properties, required, items, minItems, oneOf, allOf, negated⟩ =>
    ⟨types, format, enumValues, rereadProperties properties, required, rereadItems items, minItems,
      rereadAll oneOf, rereadAll allOf, rereadNegated negated⟩

/-- The properties that are read back. -/
def rereadProperties : List (String × Document) → List (String × Document)
  | [] => []
  | (k, d) :: ps => (k, reread d) :: rereadProperties ps

/-- The list of documents that is read back. -/
def rereadAll : List Document → List Document
  | [] => []
  | d :: ds => reread d :: rereadAll ds

/-- The keyword `items` that is read back. -/
def rereadItems : Option (Items Document) → Option (Items Document)
  | none => none
  | some (.every d) => some (.every (reread d))
  | some (.places []) => some (.every any)
  | some (.places (d :: ds)) => some (.places (reread d :: rereadAll ds))

/-- The keyword `not` that is read back. -/
def rereadNegated : Option Document → Option Document
  | none => none
  | some d => some (reread d)

end

/-- The value of the keyword `items` that is read back. -/
def itemsReread : Items Document → Items Document
  | .every d => .every d.reread
  | .places [] => .every any
  | .places ds => .places (ds.map reread)

theorem rereadAll_eq (ds : List Document) : rereadAll ds = ds.map reread := by
  induction ds with
  | nil => rfl
  | cons d ds ih => rw [rereadAll, ih, List.map_cons]

theorem rereadProperties_eq (ps : List (String × Document)) :
    rereadProperties ps = ps.map fun p => (p.1, p.2.reread) := by
  induction ps with
  | nil => rfl
  | cons p ps ih => rw [rereadProperties, ih, List.map_cons]

theorem rereadItems_eq (items : Option (Items Document)) :
    rereadItems items = items.map itemsReread := by
  rcases items with _ | d | ds
  · rfl
  · rfl
  · cases ds with
    | nil => rfl
    | cons d ds =>
      rw [rereadItems, rereadAll_eq]
      rfl

theorem rereadNegated_eq (negated : Option Document) :
    rereadNegated negated = negated.map reread := by
  cases negated <;> rfl

theorem reread_eq (d : Document) :
    d.reread = { d with
      properties := d.properties.map fun p => (p.1, p.2.reread)
      items := d.items.map itemsReread
      oneOf := d.oneOf.map reread
      allOf := d.allOf.map reread
      negated := d.negated.map reread } := by
  obtain ⟨types, format, enumValues, properties, required, items, minItems, oneOf, allOf,
    negated⟩ := d
  rw [reread, rereadProperties_eq, rereadItems_eq, rereadAll_eq, rereadAll_eq, rereadNegated_eq]

/-! ### Types -/

theorem typeShape_name (t : PrimitiveType) : typeShape (.str t.name) = some t := by
  cases t <;> decide

/-- Types come back: no array is a single type, so a list is read as a list, empty or not. -/
theorem typesShape_typesJson (t : Types) : typesShape (typesJson t) = some t := by
  cases t with
  | one t => simp [typesShape, typesJson, either, typeShape_name]
  | anyOf ts =>
    have hlist : ((ts.map PrimitiveType.name).map Json.str).mapM typeShape = some ts := by
      rw [List.map_map, List.mapM_map]
      have hmap := mapM_eq_some_map (f := id) fun t (_ : t ∈ ts) => typeShape_name t
      rw [List.map_id] at hmap
      exact hmap
    have hone : typeShape (typesJson (.anyOf ts)) = none := rfl
    rw [typesShape, either, hone, typesJson, Json.strings, list, hlist]
    rfl

theorem lookup_names_of_mem_keywords : ∀ k ∈ keywords, PrimitiveType.names.lookup k = none := by
  decide

theorem mem_keywords_of_mem_entries {d : Document} {e : String × Json} (h : e ∈ d.entries) :
    e.1 ∈ keywords := by
  rw [entries_eq] at h
  exact (keys_written_sublist d.slots).subset (List.mem_map_of_mem h)

/-- A document is no type, and no list of types: no keyword is the name of a type. -/
theorem typesShape_toJson (d : Document) : typesShape d.toJson = none := by
  have htype : typeShape d.toJson = none := by
    unfold typeShape choice toJson
    split
    · rename_i heq
      cases heq
    · rename_i name v heq
      have hmem : (name, v) ∈ d.entries := by
        rw [Json.obj.inj heq]
        exact List.mem_singleton_self _
      rw [lookup_names_of_mem_keywords _ (mem_keywords_of_mem_entries hmem), ite_self]
    · rfl
  rw [typesShape, either, htype]
  rfl

/-! ### Items -/

/-- An array that starts with a document is no document: it has its types in front. -/
theorem shapeWithin_cons (depth : Nat) (d : Document) (vs : List Json) :
    shapeWithin depth (.arr (d.toJson :: vs)) = none := by
  cases depth with
  | zero => rfl
  | succ depth =>
    have htypes : ∀ fs : Fields, maybe (("type", d.toJson) :: fs) "type" typesShape = none := by
      intro fs
      show (typesShape d.toJson).map some = none
      rw [typesShape_toJson, Option.map_none]
    rw [shapeWithin, fields]
    split
    · show Option.bind (maybe (("type", d.toJson) :: _) "type" typesShape) _ = none
      rw [htypes, Option.bind_none]
    · rfl

/-- The documents in `items` come back if they do so one by one, and a list of places is told
apart from a document unless it is empty. -/
theorem items_of_itemsJson {depth : Nat} {i : Items Document} (hdepth : (itemsJson i).depth ≤ depth)
    (hparts : ∀ p ∈ itemParts (some i), shapeWithin depth p.toJson = some p.reread) :
    either (shapeWithin depth) (list (shapeWithin depth)) .every .places (itemsJson i) =
      some (itemsReread i) := by
  unfold either
  cases i with
  | every d => rw [itemsJson, hparts d (List.mem_singleton_self d), itemsReread]
  | places ds =>
    rw [itemsJson]
    cases ds with
    | nil =>
      obtain ⟨depth, rfl⟩ := Nat.exists_eq_add_of_le' hdepth
      rfl
    | cons d ds =>
      have hlist : list (shapeWithin depth) (.arr ((d :: ds).map toJson)) =
          some ((d :: ds).map reread) := by
        rw [list, List.mapM_map]
        exact mapM_eq_some_map hparts
      rw [hlist, List.map_cons, shapeWithin_cons]
      rfl

/-! ### Documents -/

/-- A document comes back if its parts do, one level below. -/
theorem shapeWithin_of_parts {depth : Nat} {d : Document} (hd : d.Proper)
    (hdepth : d.toJson.depth ≤ depth + 1)
    (hparts : ∀ p ∈ d.parts, shapeWithin depth p.toJson = some p.reread) :
    shapeWithin (depth + 1) d.toJson = some d.reread := by
  have hfields : fields keywords false (.obj d.entries) = some d.entries := by
    rw [entries_eq, ← keys_slots d, fields_written (keys_slots d ▸ keywords_nodup)]
  have hfound : ∀ name, Entries.get? d.entries name = (Entries.get? d.slots name).join := by
    intro name
    rw [entries_eq, get?_written (keys_slots d ▸ keywords_nodup)]
  obtain ⟨hinProperties, hinItems, hinOneOf, hinAllOf, hinNegated⟩ := forall_mem_parts_iff.mp hparts
  have htypes : maybe d.entries "type" typesShape = some (d.types.map id) :=
    maybe_of_given (hfound "type") fun t _ =>
      ⟨by cases t <;> exact Json.noConfusion, typesShape_typesJson t⟩
  have hformat : maybe d.entries "format" text = some (d.format.map id) :=
    maybe_of_given (hfound "format") fun _ _ => ⟨Json.noConfusion, rfl⟩
  have henum : withDefault d.entries "enum" [] (list Shape.any) = some (d.enumValues.map id) := by
    have hvalues : Entries.get? d.entries "enum" = filled (.arr (d.enumValues.map id)) := by
      rw [List.map_id, hfound]
      rfl
    exact withDefault_of_list hvalues fun v hv => congrArg some (hd.normal v hv)
  have hproperties : withDefault d.entries "properties" [] (Shape.map (shapeWithin depth)) =
      some (d.properties.map fun p => (p.1, p.2.reread)) :=
    withDefault_of_map (hfound "properties") hd.distinct hinProperties
  have hrequired : withDefault d.entries "required" [] (list text) = some (d.required.map id) :=
    withDefault_of_list (hfound "required") fun _ _ => rfl
  have hitems : maybe d.entries "items"
      (either (shapeWithin depth) (list (shapeWithin depth)) .every .places) =
        some (d.items.map itemsReread) := by
    refine maybe_of_given (hfound "items") fun i hi => ⟨by cases i <;> exact Json.noConfusion, ?_⟩
    have hslot : ("items", some (itemsJson i)) ∈ d.slots := by simp [slots, hi]
    have hlt := depth_lt_of_mem_slots hslot
    exact items_of_itemsJson (by omega) (hi ▸ hinItems)
  have hminItems : maybe d.entries "minItems" (upTo maxUInt64) = some (d.minItems.map id) := by
    refine maybe_of_given (hfound "minItems") fun n hn => ⟨Json.noConfusion, ?_⟩
    have hle := hd.fits n hn
    simp [upTo, Json.nat, hle]
  have honeOf : withDefault d.entries "oneOf" [] (list (shapeWithin depth)) =
      some (d.oneOf.map reread) := withDefault_of_list (hfound "oneOf") hinOneOf
  have hallOf : withDefault d.entries "allOf" [] (list (shapeWithin depth)) =
      some (d.allOf.map reread) := withDefault_of_list (hfound "allOf") hinAllOf
  have hnegated : maybe d.entries "not" (shapeWithin depth) = some (d.negated.map reread) :=
    maybe_of_given (hfound "not") fun p hp => ⟨Json.noConfusion, hinNegated p hp⟩
  rw [toJson, shapeWithin, hfields, reread_eq]
  simp [htypes, hformat, henum, hproperties, hrequired, hitems, hminItems, honeOf, hallOf,
    hnegated]

theorem shapeWithin_toJson {d : Document} (h : ∀ e ∈ HasParts.preorder d, e.Proper) :
    ∀ depth, d.toJson.depth ≤ depth → shapeWithin depth d.toJson = some d.reread := by
  induction d using HasParts.induct with
  | step d ih =>
    intro depth hdepth
    obtain ⟨hd, hbelow⟩ := HasParts.forall_mem_preorder_iff.mp h
    cases depth with
    | zero => exact absurd hdepth (by rw [toJson, Json.depth]; omega)
    | succ depth =>
      refine shapeWithin_of_parts hd hdepth fun p hp => ?_
      have hlt := depth_lt_of_mem_parts hp
      exact ih p hp (hbelow p hp) depth (by omega)

/-- A document is read back as it was written, but for lists of places that are empty. -/
theorem shape_toJson {d : Document} (h : ∀ e ∈ HasParts.preorder d, e.Proper) :
    shape d.toJson = some d.reread := shapeWithin_toJson h _ (Nat.le_refl _)

end Document

end RestContract
