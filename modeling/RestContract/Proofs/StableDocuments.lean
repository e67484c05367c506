-- Documents are stable: they come back as they were written, unless a list of places in them is
-- empty. A converted document has such a list only if a tuple of its schema is empty.
import RestContract.Proofs.DocumentEquality
import RestContract.Proofs.SchemaNodes

namespace RestContract

open HasParts (preorder)

namespace Document

/-- At every node, the document is proper and no list of places is empty. -/
def Stable (d : Document) : Prop :=
  ∀ e ∈ preorder d, e.Proper ∧ e.hasEmptyPlaces = false

theorem stable_iff {d : Document} :
    d.Stable ↔ (d.Proper ∧ d.hasEmptyPlaces = false) ∧ ∀ p ∈ d.parts, p.Stable :=
  HasParts.forall_mem_preorder_iff

/-- A document without properties, items and a number is stable if its values and its parts are. -/
theorem stable_of_plain {d : Document} (hproperties : d.properties = []) (hitems : d.items = none)
    (hminItems : d.minItems = none) (hvalues : ∀ v ∈ d.enumValues, v.normal = v)
    (hparts : ∀ p ∈ d.parts, p.Stable) : d.Stable := by
  refine stable_iff.mpr ⟨⟨⟨?_, hvalues, ?_⟩, ?_⟩, hparts⟩
  · rw [hproperties]; exact List.nodup_nil
  · simp [hminItems]
  · simp [hasEmptyPlaces, hitems]

theorem stable_of_values {types : Option Types} {format : Option String} {values : List Json}
    (h : ∀ v ∈ values, v.normal = v) :
    ({ types := types, format := format, enumValues := values } : Document).Stable :=
  stable_of_plain rfl rfl rfl h fun _ hp => absurd hp List.not_mem_nil

theorem stable_any : any.Stable := stable_of_values (List.forall_mem_nil _)

theorem stable_ofType (t : PrimitiveType) : (ofType t).Stable :=
  stable_of_values (List.forall_mem_nil _)

theorem stable_never : never.Stable := by
  refine stable_of_plain rfl rfl rfl (List.forall_mem_nil _) fun p hp => ?_
  rw [List.mem_singleton.mp hp]
  exact stable_any

theorem stable_arrayOf {d : Document} (h : d.Stable) : (arrayOf d).Stable := by
  refine stable_iff.mpr ⟨⟨⟨List.nodup_nil, List.forall_mem_nil _, ?_⟩, rfl⟩, fun p hp => ?_⟩
  · rintro n ⟨⟩
  · rw [List.mem_singleton.mp hp]
    exact h

theorem stable_places {ds : List Document} (hne : ds ≠ []) (hlength : ds.length ≤ maxUInt64)
    (hds : ∀ d ∈ ds, d.Stable) :
    ({ ofType .array with
      items := some (.places ds), minItems := some ds.length } : Document).Stable := by
  refine stable_iff.mpr ⟨⟨⟨List.nodup_nil, List.forall_mem_nil _, ?_⟩, ?_⟩, ?_⟩
  · rintro n ⟨⟩
    exact hlength
  · rw [hasEmptyPlaces_eq_false_iff]
    simpa using hne
  · simpa [parts, ofType, itemParts, Entries.values] using hds

/-- A property that is given twice has one document, and either one is stable. -/
theorem stable_properties {ps : List (String × Document)} (required : List String)
    (hps : ∀ e ∈ ps, e.2.Stable) :
    ({ ofType .object with
      properties := Entries.ofPairs ps, required := required } : Document).Stable := by
  refine stable_iff.mpr ⟨⟨⟨Entries.keys_ofPairs_nodup ps, List.forall_mem_nil _, ?_⟩, rfl⟩, ?_⟩
  · rintro n ⟨⟩
  · refine forall_mem_parts_iff.mpr ⟨fun e he => hps e (Entries.mem_of_mem_ofPairs he), ?_⟩
    simp [ofType, itemParts]

theorem stable_ofNativeEnum {values : Entries String EnumValue}
    (h : ∀ v ∈ Entries.values values, v.toJson.normal = v.toJson) :
    (ofNativeEnum values).Stable := by
  rw [ofNativeEnum]
  split
  · exact stable_never
  · refine stable_of_values fun v hv => ?_
    obtain ⟨w, hw, rfl⟩ := List.mem_map.mp hv
    exact h w (List.mem_of_mem_filter hw)

end Document

namespace TypeSchema

open Document

/-- What holds of a schema in memory, whatever is below it: its values are in normal form, and
the number of its places fits. -/
def Proper : TypeSchema → Prop
  | literal value => value.normal = value
  | nativeEnum values => ∀ v ∈ Entries.values values, v.toJson.normal = v.toJson
  | tuple elements => elements.length ≤ maxUInt64
  | _ => True

/-- The schema is a tuple without elements. -/
def isEmptyTuple : TypeSchema → Bool
  | tuple [] => true
  | _ => false

theorem stable_document {s : TypeSchema} {ds : List Document} (hs : s.Proper)
    (htuple : s.isEmptyTuple = false) (hlength : ds.length = s.parts.length)
    (hds : ∀ d ∈ ds, d.Stable) : (s.document ds).Stable := by
  have hhead : (ds.headD any).Stable := by
    cases ds with
    | nil => exact stable_any
    | cons d ds => exact hds d List.mem_cons_self
  cases s with
  | literal value =>
    cases value with
    | arr | obj => exact stable_any
    | null => exact stable_ofType .null
    | num | bool | str => exact stable_of_values fun v hv => List.mem_singleton.mp hv ▸ hs
  | nativeEnum values => exact stable_ofNativeEnum hs
  | enum values =>
    refine stable_of_values fun v hv => ?_
    obtain ⟨s, -, rfl⟩ := List.mem_map.mp hv
    rfl
  | object fields =>
    exact stable_properties _ fun e he => hds e.2 (List.of_mem_zip he).2
  | array element => exact stable_arrayOf hhead
  | tuple elements =>
    have hne : ds ≠ [] := by
      rintro rfl
      cases elements with
      | nil => cases htuple
      | cons => cases hlength
    exact stable_places hne (hlength ▸ hs) hds
  | optional inner | nullable inner | lazy thunk built => exact hhead
  | union | discriminatedUnion | intersection =>
    refine stable_of_plain rfl rfl rfl (List.forall_mem_nil _) ?_
    simpa [Document.parts, itemParts, Entries.values, document] using hds
  | unknown | record | map | set | function => exact stable_any
  | void => exact stable_never
  | bigint | date => exact stable_of_values (List.forall_mem_nil _)
  | string | number | boolean | null => exact stable_ofType _

/-- What is converted is stable, unless a tuple in the schema is empty. -/
theorem stable_of_convert {s : TypeSchema} (hs : ∀ n ∈ preorder s, n.Proper)
    (htuples : ∀ n ∈ preorder s, n.isEmptyTuple = false) {d : Document} (h : s.convert = .ok d) :
    d.Stable := by
  induction s using HasParts.induct generalizing d with
  | step s ih =>
    obtain ⟨hproper, hbelow⟩ := HasParts.forall_mem_preorder_iff.mp hs
    obtain ⟨htuple, htuplesBelow⟩ := HasParts.forall_mem_preorder_iff.mp htuples
    obtain ⟨ds, hparts, rfl⟩ := exists_parts_of_convert h
    obtain ⟨hlength, hfrom, -⟩ := of_mapM_convert hparts
    refine stable_document hproper htuple hlength fun d hd => ?_
    obtain ⟨p, hp, hpd⟩ := hfrom d hd
    exact ih p hp (hbelow p hp) (htuplesBelow p hp) hpd

end TypeSchema

/-! ## The law -/

namespace Document

open Shape TypeSchema

/-- A document comes back as it was written if and only if no list of places in it is empty, for
in place of such a list stands the document that admits anything. A converted document comes
back unless a tuple is empty. Otherwise one type is never read as a list of types, a list of
places never as a document, nor the other way round. -/
theorem a_document_comes_back_unless_a_list_of_places_is_empty :
    (∀ d : Document, (∀ e ∈ preorder d, e.Proper) →
      shape d.toJson = some d.reread ∧
      (shape d.toJson = some d ↔ ∀ e ∈ preorder d, e.hasEmptyPlaces = false) ∧
      ((∃ back, shape d.toJson = some back ∧ d.same back = true) ↔
        ∀ e ∈ preorder d, e.hasEmptyPlaces = false)) ∧
    (∀ (s : TypeSchema) (d : Document), (∀ n ∈ preorder s, n.Proper) →
      (∀ n ∈ preorder s, n.isEmptyTuple = false) → s.convert = .ok d →
      shape d.toJson = some d) ∧
    (∀ t : Types, typesShape (typesJson t) = some t) ∧
    (∀ (d : Document) (ds : List Document),
      shape (itemsJson (.places (d :: ds))) = none ∧
      list shape (itemsJson (.every d)) = none) := by
  have hback : ∀ d : Document, (∀ e ∈ preorder d, e.Proper) →
      (shape d.toJson = some d ↔ ∀ e ∈ preorder d, e.hasEmptyPlaces = false) := by
    intro d hd
    rw [shape_toJson hd, Option.some_inj, reread_eq_self_iff]
  refine ⟨fun d hd => ⟨shape_toJson hd, hback d hd, ?_⟩, ?_, typesShape_typesJson, ?_⟩
  · simp only [shape_toJson hd, Option.some_inj, exists_eq_left']
    exact same_reread_iff hd
  · intro s d hs htuples hconvert
    have hstable := stable_of_convert hs htuples hconvert
    exact (hback d fun e he => (hstable e he).1).mpr fun e he => (hstable e he).2
  · exact fun d ds => ⟨shapeWithin_cons _ d (ds.map toJson), rfl⟩

/-- A tuple of two places, and one without any. -/
theorem the_document_of_a_pair_comes_back_but_not_that_of_an_empty_tuple :
    (∃ d, (tuple [string, literal (.bool true)]).convert = .ok d ∧ shape d.toJson = some d) ∧
    (∀ e ∈ preorder ((tuple []).document []), e.Proper) ∧
    shape ((tuple []).document []).toJson = some { arrayOf any with minItems := some 0 } ∧
    shape ((tuple []).document []).toJson ≠ some ((tuple []).document []) := by
  have hnodes : preorder (tuple [string, literal (.bool true)]) =
      [tuple [string, literal (.bool true)], string, literal (.bool true)] := by
    simp [HasParts.preorder_eq, HasParts.parts, TypeSchema.parts]
  have hpair : shape _ = some ((tuple [string, literal (.bool true)]).document
      [ofType .string, (ofType .boolean).withEnum [.bool true]]) :=
    a_document_comes_back_unless_a_list_of_places_is_empty.2.1
      (tuple [string, literal (.bool true)]) _
      (by simp [hnodes, TypeSchema.Proper, Json.normal, maxUInt64])
      (by simp [hnodes, isEmptyTuple]) rfl
  have hproper : ∀ e ∈ preorder ((tuple []).document []), e.Proper := by
    refine HasParts.forall_mem_preorder_iff.mpr ⟨⟨List.nodup_nil, List.forall_mem_nil _, ?_⟩, ?_⟩
    · rintro n ⟨⟩
      exact Nat.zero_le _
    · exact fun p hp => absurd hp List.not_mem_nil
  have hempty : ((tuple []).document []).hasEmptyPlaces = true := rfl
  obtain ⟨hread, hiff, -⟩ := a_document_comes_back_unless_a_list_of_places_is_empty.1 _ hproper
  refine ⟨⟨_, rfl, hpair⟩, hproper, hread, fun hback => ?_⟩
  cases hempty.symm.trans (hiff.mp hback _ (HasParts.mem_preorder_self _))

end Document

end RestContract
