-- The nodes of a type schema. The parts of a node are the schemas that conversion looks into,
-- and the document of a node comes from the documents of its parts alone.
import RestContract.Proofs.Matching
import RestContract.Proofs.Parts
import RestContract.Schema.Conversion

namespace RestContract

namespace TypeSchema

/-! ## Parts -/

/-- The schemas right below a node, in order. Nodes without a document are not entered. -/
def parts : TypeSchema → List TypeSchema
  | object fields => Entries.values fields
  | array element => [element]
  | tuple elements => elements
  | union variants | discriminatedUnion _ variants => variants
  | intersection left right => [left, right]
  | optional inner | nullable inner => [inner]
  | lazy _ built => [built]
  | _ => []

theorem sizeOf_lt_of_mem_parts {s p : TypeSchema} (h : p ∈ s.parts) : sizeOf p < sizeOf s := by
  cases s with
  | object fields =>
    have hlt := Entries.sizeOf_lt_of_mem_values h
    rw [object.sizeOf_spec]
    omega
  | tuple elements =>
    have hlt := List.sizeOf_lt_of_mem (show p ∈ elements from h)
    rw [tuple.sizeOf_spec]
    omega
  | union variants =>
    have hlt := List.sizeOf_lt_of_mem (show p ∈ variants from h)
    rw [union.sizeOf_spec]
    omega
  | discriminatedUnion discriminator variants =>
    have hlt := List.sizeOf_lt_of_mem (show p ∈ variants from h)
    rw [discriminatedUnion.sizeOf_spec]
    omega
  | intersection left right =>
    rw [intersection.sizeOf_spec]
    rcases List.mem_pair.mp h with rfl | rfl <;> omega
  | array | optional | nullable | lazy =>
    cases List.mem_singleton.mp h
    simp only [array.sizeOf_spec, optional.sizeOf_spec, nullable.sizeOf_spec, lazy.sizeOf_spec]
    omega
  | _ => cases h

instance : HasParts TypeSchema := ⟨parts, sizeOf_lt_of_mem_parts⟩

/-! ## Nodes without a document -/

/-- No document describes this node, whatever is below it. -/
def isUnsupported : TypeSchema → Bool
  | record _ | map .. | set _ | function => true
  | literal (.arr _) | literal (.obj _) => true
  | _ => false

open Document

/-- The document of a node from the documents of its parts, in order. -/
def document : TypeSchema → List Document → Document
  | string, _ => ofType .string
  | number, _ => ofType .number
  | boolean, _ => ofType .boolean
  | bigint, _ => (ofType .integer).withFormat "int64"
  | literal value, _ => (ofLiteral? value).getD any
  | enum values, _ => (ofType .string).withEnum (values.map .str)
  | nativeEnum values, _ => ofNativeEnum values
  | object fields, ds =>
    { ofType .object with
      properties := Entries.ofPairs ((Entries.keys fields).zip ds)
      required := requiredFields fields }
  | array _, ds => arrayOf (ds.headD any)
  | tuple _, ds => { ofType .array with items := some (.places ds), minItems := some ds.length }
  | union _, ds | discriminatedUnion .., ds => { oneOf := ds }
  | intersection .., ds => { allOf := ds }
  | optional _, ds | nullable _, ds | lazy .., ds => ds.headD any
  | null, _ => ofType .null
  | void, _ => never
  | date, _ => (ofType .string).withFormat "date-time"
  | unknown, _ | record _, _ | map .., _ | set _, _ | function, _ => any

/-! ## Conversion node by node -/

/-- The outer layers of a schema make no difference to its document. -/
theorem convert_unwrapped (s : TypeSchema) : s.unwrapped.convert = s.convert := by
  fun_induction unwrapped s with
  | case1 inner ih | case2 inner ih => simp only [convert, ih]
  | case3 s => rfl

theorem convertAll_eq (ss : List TypeSchema) : convertAll ss = ss.mapM convert := by
  induction ss with
  | nil => rfl
  | cons s ss ih => simp [convertAll, ih]

theorem convertFields_eq (fields : List (String × TypeSchema)) :
    convertFields fields =
      ((Entries.values fields).mapM convert).map ((Entries.keys fields).zip ·) := by
  induction fields with
  | nil => rfl
  | cons f fs ih =>
    obtain ⟨name, s⟩ := f
    simp only [convertFields, convert_unwrapped, ih, Entries.values, Entries.keys, List.map_cons,
      List.mapM_cons]
    cases s.convert with
    | error e => rfl
    | ok d => cases (List.map Prod.snd fs).mapM convert <;> rfl

/-- A node fails by itself, or it is converted through its parts. -/
theorem convert_eq (s : TypeSchema) : s.convert =
    if s.isUnsupported then .error s.unsupported else (s.parts.mapM convert).map s.document := by
  cases s with
  | literal value => cases value <;> rw [convert] <;> rfl
  | object fields =>
    simp only [convert, convertFields_eq, parts, isUnsupported]
    cases (Entries.values fields).mapM convert <;> rfl
  | tuple elements =>
    simp only [convert, convertAll_eq, parts, isUnsupported]
    cases elements.mapM convert <;> rfl
  | union variants | discriminatedUnion discriminator variants =>
    simp only [convert, convertAll_eq, parts, isUnsupported]
    cases variants.mapM convert <;> rfl
  | intersection left right =>
    simp only [convert, parts, isUnsupported, List.mapM_cons, List.mapM_nil]
    cases left.convert <;> cases right.convert <;> rfl
  | array part | optional part | nullable part | lazy _ part =>
    simp only [convert, parts, isUnsupported, List.mapM_cons, List.mapM_nil]
    cases part.convert <;> rfl
  | _ =>
    rw [convert]
    rfl

/-- The documents of a list of schemas are those of its schemas, one by one. -/
theorem mapM_convert_iff {ss : List TypeSchema} {ds : List Document} :
    ss.mapM convert = .ok ds ↔ List.Forall₂ (fun s d => s.convert = .ok d) ss ds := by
  induction ss generalizing ds with
  | nil =>
    rw [List.forall₂_nil_left_iff, List.mapM_nil]
    exact ⟨fun h => (Except.ok.inj h).symm, fun h => congrArg Except.ok h.symm⟩
  | cons s ss ih =>
    rw [List.forall₂_cons_left_iff, List.mapM_cons]
    simp only [← ih]
    cases s.convert with
    | error e => exact ⟨nofun, nofun⟩
    | ok d =>
      cases ss.mapM convert with
      | error e => exact ⟨nofun, nofun⟩
      | ok rest =>
        constructor
        · rintro ⟨⟩
          exact ⟨d, rest, rfl, rfl, rfl⟩
        · rintro ⟨d', rest', ⟨⟩, ⟨⟩, rfl⟩
          rfl

/-- There are as many documents as schemas, and each one comes from one of the schemas. -/
theorem of_mapM_convert {ss : List TypeSchema} {ds : List Document}
    (h : ss.mapM convert = .ok ds) :
    ds.length = ss.length ∧ (∀ d ∈ ds, ∃ s ∈ ss, s.convert = .ok d) ∧
      ∀ s ∈ ss, ∃ d ∈ ds, s.convert = .ok d := by
  rw [mapM_convert_iff] at h
  exact ⟨h.length_eq.symm, fun d hd => exists_mem_of_forall₂_right h hd,
    fun s hs => exists_mem_of_forall₂ h hs⟩

/-- A document comes from the documents of the parts. -/
theorem exists_parts_of_convert {s : TypeSchema} {d : Document} (h : s.convert = .ok d) :
    ∃ ds, s.parts.mapM convert = .ok ds ∧ s.document ds = d := by
  rw [convert_eq] at h
  split at h
  · cases h
  · cases hparts : s.parts.mapM convert with
    | error e => rw [hparts] at h; cases h
    | ok ds =>
      rw [hparts] at h
      cases h
      exact ⟨ds, rfl, rfl⟩

end TypeSchema

end RestContract
