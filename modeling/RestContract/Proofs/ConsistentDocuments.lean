-- Converted documents are consistent at every depth: their keywords agree with each other, and the
-- document of an object lists its fields in order and requires those that are not marked.
import RestContract.Proofs.CompiledEnums
import RestContract.Proofs.EmptyAlternatives
import RestContract.Proofs.Matching

namespace RestContract

open HasParts (preorder)

/-- The primitive type of a value that an enum may list. -/
def Json.scalar? : Json → Option PrimitiveType
  | .str _ => some .string
  | .num _ => some .number
  | .bool _ => some .boolean
  | _ => none

namespace Document

/-! ## Keywords that agree -/

/-- How many of the keywords that say what a value is have a value themselves. -/
def usedKinds (d : Document) : Nat :=
  [d.types.isSome, !d.oneOf.isEmpty, !d.allOf.isEmpty, d.negated.isSome].count true

/-- The keywords of a document agree with each other. -/
structure Consistent (d : Document) : Prop where
  properties_nodup : (Entries.keys d.properties).Nodup
  /-- The required names are some of the properties, in their order. -/
  required_sublist : d.required.Sublist (Entries.keys d.properties)
  required_of_object : d.required ≠ [] → d.types = some (.one .object)
  /-- There is a least number of items exactly for a list of places, one for each place. -/
  minItems_iff : ∀ n, d.minItems = some n ↔ ∃ ds, d.items = some (.places ds) ∧ ds.length = n
  values_fit : ∀ v ∈ d.enumValues, ∃ types t, d.types = some types ∧ t ∈ types.toList ∧
    v.scalar? = some t
  /-- A list of types has several, each once, in the order of the values. -/
  types_listed : ∀ ts, d.types = some (.anyOf ts) → 2 ≤ ts.length ∧ ts.Nodup ∧
    ListsFirstSeen ts (d.enumValues.filterMap Json.scalar?)
  usedKinds_le : d.usedKinds ≤ 1
  allOf_pair : d.allOf = [] ∨ d.allOf.length = 2
  negated_any : ∀ p, d.negated = some p → p = any

theorem Consistent.required_nodup {d : Document} (h : d.Consistent) : d.required.Nodup :=
  h.properties_nodup.sublist h.required_sublist

/-- At every depth, the keywords agree with each other. -/
def DeeplyConsistent (d : Document) : Prop := ∀ e ∈ preorder d, e.Consistent

theorem Consistent.deeply {d : Document} (h : d.Consistent)
    (hparts : ∀ p ∈ d.parts, p.DeeplyConsistent) : d.DeeplyConsistent :=
  HasParts.forall_mem_preorder_iff.mpr ⟨h, hparts⟩

/-! ## The shapes of converted documents -/

/-- A document without properties and items that lists values of its types. -/
theorem deeplyConsistent_of_values {types : Types} {format : Option String} {values : List Json}
    (hfit : ∀ v ∈ values, ∃ t ∈ types.toList, v.scalar? = some t)
    (hlisted : ∀ ts, types = .anyOf ts → 2 ≤ ts.length ∧ ts.Nodup ∧
      ListsFirstSeen ts (values.filterMap Json.scalar?)) :
    ({ types := some types, format := format,
        enumValues := values } : Document).DeeplyConsistent := by
  refine Consistent.deeply ?_ (by simp [parts, Entries.values, itemParts])
  exact {
    properties_nodup := List.nodup_nil
    required_sublist := List.Sublist.slnil
    required_of_object := absurd rfl
    minItems_iff := by simp
    values_fit := fun v hv => (hfit v hv).elim fun t ht => ⟨types, t, rfl, ht⟩
    types_listed := fun ts hts => hlisted ts (Option.some.inj hts)
    usedKinds_le := Nat.le_refl 1
    allOf_pair := .inl rfl
    negated_any := by simp }

theorem deeplyConsistent_of_type {t : PrimitiveType} {format : Option String} {values : List Json}
    (h : ∀ v ∈ values, v.scalar? = some t) :
    ({ types := some (.one t), format := format,
        enumValues := values } : Document).DeeplyConsistent :=
  deeplyConsistent_of_values (fun v hv => ⟨t, List.mem_cons_self, h v hv⟩) (by simp)

/-- A document of one type with properties or items. -/
theorem deeplyConsistent_of_container {t : PrimitiveType} {properties : List (String × Document)}
    {required : List String} {items : Option (Items Document)} {minItems : Option Nat}
    (hproperties : (Entries.keys properties).Nodup)
    (hrequired : required.Sublist (Entries.keys properties))
    (hobject : required ≠ [] → t = .object)
    (hminItems : ∀ n, minItems = some n ↔ ∃ ds, items = some (.places ds) ∧ ds.length = n)
    (hparts : ∀ p ∈ Entries.values properties ++ itemParts items, p.DeeplyConsistent) :
    ({ types := some (.one t), properties := properties, required := required, items := items,
        minItems := minItems } : Document).DeeplyConsistent := by
  refine Consistent.deeply ?_ (by simpa [parts] using hparts)
  exact {
    properties_nodup := hproperties
    required_sublist := hrequired
    required_of_object := fun hne => congrArg (some ∘ Types.one) (hobject hne)
    minItems_iff := hminItems
    values_fit := List.forall_mem_nil _
    types_listed := by simp
    usedKinds_le := Nat.le_refl 1
    allOf_pair := .inl rfl
    negated_any := by simp }

/-- A document that has only lists of documents, or only rules one out. -/
theorem deeplyConsistent_of_untyped {oneOf allOf : List Document} {negated : Option Document}
    (hused : ({ oneOf := oneOf, allOf := allOf, negated := negated } : Document).usedKinds ≤ 1)
    (hpair : allOf = [] ∨ allOf.length = 2) (hnegated : ∀ p, negated = some p → p = any)
    (hparts : ∀ p ∈ oneOf ++ allOf ++ negated.toList, p.DeeplyConsistent) :
    ({ oneOf := oneOf, allOf := allOf, negated := negated } : Document).DeeplyConsistent := by
  refine Consistent.deeply ?_ (by simpa [parts, Entries.values, itemParts] using hparts)
  exact {
    properties_nodup := List.nodup_nil
    required_sublist := List.Sublist.slnil
    required_of_object := absurd rfl
    minItems_iff := by simp
    values_fit := List.forall_mem_nil _
    types_listed := by simp
    usedKinds_le := hused
    allOf_pair := hpair
    negated_any := hnegated }

theorem deeplyConsistent_any : any.DeeplyConsistent :=
  deeplyConsistent_of_untyped (by decide) (.inl rfl) (by simp) (List.forall_mem_nil _)

theorem deeplyConsistent_never : never.DeeplyConsistent :=
  deeplyConsistent_of_untyped (by decide) (.inl rfl) (fun _ hp => (Option.some.inj hp).symm)
    (List.forall_mem_singleton.mpr deeplyConsistent_any)

theorem scalar?_toJson (v : EnumValue) : v.toJson.scalar? = some (typeOf v) := by
  cases v <;> rfl

theorem deeplyConsistent_ofNativeEnum (values : Entries String EnumValue) :
    (ofNativeEnum values).DeeplyConsistent := by
  by_cases hkept : keptValues values = []
  · rw [ofNativeEnum_of_isEmpty hkept]
    exact deeplyConsistent_never
  · have hdoc := ofNativeEnum_of_ne_nil hkept
    have hscalars : ((keptValues values).map EnumValue.toJson).filterMap Json.scalar? =
        (keptValues values).map typeOf := by
      rw [List.filterMap_map, ← List.filterMap_eq_map]
      exact List.filterMap_congr fun v _ => scalar?_toJson v
    rw [hdoc]
    refine deeplyConsistent_of_values (fun v hv => ?_) fun ts hts => ?_
    · obtain ⟨w, hw, rfl⟩ := List.mem_map.mp hv
      refine ⟨typeOf w, ?_, scalar?_toJson w⟩
      rw [toList_typesOf]
      exact List.mem_eraseDups.mpr (List.mem_map_of_mem hw)
    · have hlisted : (ofNativeEnum values).types = some (.anyOf ts) := by rw [hdoc, hts]
      obtain ⟨hlength, hfirsts⟩ := types_ofNativeEnum_eq_anyOf_iff.mp hlisted
      rw [hscalars]
      exact ⟨hlength, listsFirstSeen_iff.mp hfirsts ▸ Entries.nodup_eraseDups _, hfirsts⟩

end Document

/-! ## Conversion -/

namespace TypeSchema

open Document

theorem requiredFields_sublist (fields : List (String × TypeSchema)) :
    (requiredFields fields).Sublist (Entries.keys fields) :=
  List.filter_sublist.map _

theorem mem_requiredFields_iff {fields : List (String × TypeSchema)}
    (hfields : (Entries.keys fields).Nodup) {f : String × TypeSchema} (hf : f ∈ fields) :
    f.1 ∈ requiredFields fields ↔ f.2.kind ≠ .optional ∧ f.2.kind ≠ .nullable := by
  have hmark : f.2.isOptionalOrNullable = false ↔ f.2.kind ≠ .optional ∧ f.2.kind ≠ .nullable := by
    cases f.2 <;> simp [isOptionalOrNullable, kind]
  rw [← hmark, requiredFields, Entries.keys, List.mem_map]
  constructor
  · rintro ⟨g, hg, hname⟩
    obtain ⟨hmem, hbare⟩ := List.mem_filter.mp hg
    rw [List.inj_on_of_nodup_map hfields hmem hf hname] at hbare
    simpa using hbare
  · exact fun hbare => ⟨f, List.mem_filter.mpr ⟨hf, by simp [hbare]⟩, rfl⟩

/-- There are as many documents as fields, so every field has its own. -/
theorem keys_zip {fields : List (String × TypeSchema)} {ds : List Document}
    (hlength : ds.length = fields.length) :
    Entries.keys ((Entries.keys fields).zip ds) = Entries.keys fields :=
  List.map_fst_zip (by simp [hlength, Entries.keys])

theorem exists_mem_zip {fields : List (String × TypeSchema)} {ds : List Document}
    (h : List.Forall₂ (fun s d => s.convert = .ok d) (Entries.values fields) ds)
    {f : String × TypeSchema} (hf : f ∈ fields) :
    ∃ d, (f.1, d) ∈ (Entries.keys fields).zip ds ∧ f.2.convert = .ok d := by
  obtain ⟨⟨k, d⟩, hmem, rfl, hd⟩ := exists_mem_of_forall₂ (Entries.forall₂_keys_zip h) hf
  exact ⟨d, hmem, hd⟩

theorem properties_document {fields : List (String × TypeSchema)} {ds : List Document}
    (hfields : (Entries.keys fields).Nodup) (hlength : ds.length = fields.length) :
    ((object fields).document ds).properties = (Entries.keys fields).zip ds :=
  Entries.ofPairs_of_nodup ((keys_zip hlength).symm ▸ hfields)

theorem deeplyConsistent_document {s : TypeSchema} {ds : List Document} (hs : s.HasDistinctFields)
    (hlength : ds.length = s.parts.length) (hds : ∀ d ∈ ds, d.DeeplyConsistent) :
    (s.document ds).DeeplyConsistent := by
  cases s with
  | optional | nullable | lazy =>
    obtain ⟨d, rfl⟩ := List.length_eq_one_iff.mp hlength
    exact hds d List.mem_cons_self
  | literal value =>
    cases value with
    | arr | obj => exact deeplyConsistent_any
    | null | num | bool | str => exact deeplyConsistent_of_type (by simp [Json.scalar?])
  | nativeEnum values => exact deeplyConsistent_ofNativeEnum values
  | enum values => exact deeplyConsistent_of_type (by simp [Json.scalar?])
  | object fields =>
    have hcount : ds.length = fields.length := by simpa [parts, Entries.values] using hlength
    have hproperties := properties_document hs hcount
    refine deeplyConsistent_of_container (Entries.keys_ofPairs_nodup _) ?_ (fun _ => rfl)
      (by simp [ofType]) fun p hp => ?_
    · rw [show Entries.ofPairs _ = _ from hproperties, keys_zip hcount]
      exact requiredFields_sublist fields
    · rw [show Entries.ofPairs _ = _ from hproperties] at hp
      have hmem : p ∈ Entries.values ((Entries.keys fields).zip ds) := by
        simpa [ofType, itemParts] using hp
      obtain ⟨e, he, rfl⟩ := List.mem_map.mp hmem
      exact hds e.2 (List.of_mem_zip he).2
  | array element =>
    obtain ⟨d, rfl⟩ := List.length_eq_one_iff.mp hlength
    exact deeplyConsistent_of_container List.nodup_nil List.Sublist.slnil (absurd rfl)
      (by simp [ofType]) hds
  | tuple elements =>
    exact deeplyConsistent_of_container List.nodup_nil List.Sublist.slnil (absurd rfl) (by simp) hds
  | union | discriminatedUnion =>
    refine deeplyConsistent_of_untyped ?_ (.inl rfl) (by simp) (by simpa using hds)
    cases ds <;> simp [usedKinds]
  | intersection left right =>
    refine deeplyConsistent_of_untyped ?_ (.inr hlength) (by simp) (by simpa using hds)
    cases ds <;> simp [usedKinds]
  | void => exact deeplyConsistent_never
  | unknown | record | map | set | function => exact deeplyConsistent_any
  | string | number | boolean | bigint | null | date => exact deeplyConsistent_of_type (List.forall_mem_nil _)

theorem deeplyConsistent_of_convert {s : TypeSchema} {d : Document}
    (hs : ∀ n ∈ preorder s, n.HasDistinctFields) (h : s.convert = .ok d) :
    d.DeeplyConsistent := by
  induction s using HasParts.induct generalizing d with
  | step s ih =>
    obtain ⟨hdistinct, hbelow⟩ := HasParts.forall_mem_preorder_iff.mp hs
    obtain ⟨ds, hparts, rfl⟩ := exists_parts_of_convert h
    obtain ⟨hlength, hfrom, -⟩ := of_mapM_convert hparts
    refine deeplyConsistent_document hdistinct hlength fun e he => ?_
    obtain ⟨p, hp, hpe⟩ := hfrom e he
    exact ih p hp (hbelow p hp) hpe

/-! ## The law -/

/-- Every document in a converted document agrees with itself. The document of each object lists
all fields in their order, each with the document of its schema, and requires exactly the fields
that are not marked as optional or nullable. -/
theorem converted_documents_are_consistent_at_every_depth {s : TypeSchema} {d : Document}
    (hs : ∀ n ∈ preorder s, n.HasDistinctFields) (h : s.convert = .ok d) :
    (∀ e ∈ preorder d, e.Consistent ∧ e.required.Nodup) ∧
      ∀ fields, object fields ∈ preorder s → ∃ e ∈ preorder d, (object fields).convert = .ok e ∧
        e.types = some (.one .object) ∧ Entries.keys e.properties = Entries.keys fields ∧
        (∀ f ∈ fields, ∃ p, (f.1, p) ∈ e.properties ∧ f.2.convert = .ok p) ∧
        ∀ f ∈ fields, f.1 ∈ e.required ↔ f.2.kind ≠ .optional ∧ f.2.kind ≠ .nullable := by
  have hdeep := deeplyConsistent_of_convert hs h
  refine ⟨fun e he => ⟨hdeep e he, (hdeep e he).required_nodup⟩, fun fields hmem => ?_⟩
  obtain ⟨e, he, hconvert⟩ := exists_convert_mem_preorder hs h hmem
  refine ⟨e, he, hconvert, ?_⟩
  obtain ⟨ds, hparts, rfl⟩ := exists_parts_of_convert hconvert
  have hcount : ds.length = fields.length := by
    simpa [parts, Entries.values] using (of_mapM_convert hparts).1
  have hproperties := properties_document (hs _ hmem) hcount
  refine ⟨rfl, ?_, fun f hf => ?_, fun f hf => mem_requiredFields_iff (hs _ hmem) hf⟩
  · rw [hproperties, keys_zip hcount]
  · rw [hproperties]
    exact exists_mem_zip (mapM_convert_iff.mp hparts) hf

/-- An object with a marked field and a compiled enum of two types, side by side in a tuple. -/
theorem the_document_of_a_pair_is_consistent_at_every_depth :
    ∃ d, (tuple [object [("id", string), ("note", number.optional)],
        nativeEnum [("A", .number (.int 0)), ("B", .text "b")]]).convert = .ok d ∧
      (∀ e ∈ preorder d, e.Consistent) ∧
      ∃ e ∈ preorder d, Entries.keys e.properties = ["id", "note"] ∧ "id" ∈ e.required ∧
        "note" ∉ e.required := by
  have hnodes : preorder (tuple [object [("id", string), ("note", number.optional)],
      nativeEnum [("A", .number (.int 0)), ("B", .text "b")]]) =
      [tuple [object [("id", string), ("note", number.optional)],
        nativeEnum [("A", .number (.int 0)), ("B", .text "b")]],
        object [("id", string), ("note", number.optional)], string, number.optional, number,
        nativeEnum [("A", .number (.int 0)), ("B", .text "b")]] := by
    simp [HasParts.preorder_eq, HasParts.parts, parts, Entries.values]
  obtain ⟨hconsistent, hobjects⟩ := converted_documents_are_consistent_at_every_depth
    (s := tuple [object [("id", string), ("note", number.optional)],
      nativeEnum [("A", .number (.int 0)), ("B", .text "b")]])
    (by simp [hnodes, HasDistinctFields, Entries.keys]) rfl
  obtain ⟨e, he, -, -, hkeys, -, hrequired⟩ :=
    hobjects [("id", string), ("note", number.optional)] (by simp [hnodes])
  refine ⟨_, rfl, fun e he => (hconsistent e he).1, e, he, hkeys, ?_, ?_⟩
  · exact (hrequired ("id", string) (by simp)).mpr (by decide)
  · exact fun hmem => ((hrequired ("note", number.optional) (by simp)).mp hmem).1 rfl

end TypeSchema

end RestContract
