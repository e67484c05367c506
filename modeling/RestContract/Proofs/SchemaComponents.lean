-- All schemas in a schema, also where conversion does not look: the schemas right below a node,
-- what holds at every node, and what holds of the maps and values of a schema in memory.
import RestContract.Proofs.SchemaNodes

namespace RestContract.TypeSchema

/-- A schema without data and without schemas in it. -/
def isBare : TypeSchema → Bool
  | string | number | boolean | bigint | null | void | unknown | date | function => true
  | _ => false

/-- The schemas right below a node, also below the nodes that have no document. -/
def components : TypeSchema → List TypeSchema
  | record value => [value]
  | map key value => [key, value]
  | set element => [element]
  | s => s.parts

theorem parts_subset_components (s : TypeSchema) : s.parts ⊆ s.components := by
  cases s with
  | record | map | set => exact List.nil_subset _
  | _ => exact List.Subset.refl _

theorem sizeOf_lt_of_mem_components {s c : TypeSchema} (h : c ∈ s.components) :
    sizeOf c < sizeOf s := by
  cases s with
  | record value =>
    cases List.mem_singleton.mp h
    rw [record.sizeOf_spec]
    omega
  | map key value =>
    rw [map.sizeOf_spec]
    rcases List.mem_pair.mp h with rfl | rfl <;> omega
  | set element =>
    cases List.mem_singleton.mp h
    rw [set.sizeOf_spec]
    omega
  | _ => exact sizeOf_lt_of_mem_parts h

/-- What a schema has from the schemas right below it, every schema has. -/
theorem induct {P : TypeSchema → Prop} (step : ∀ s, (∀ c ∈ s.components, P c) → P s)
    (s : TypeSchema) : P s :=
  step s fun c _hc => induct step c
termination_by sizeOf s
decreasing_by exact sizeOf_lt_of_mem_components _hc

/-- The property holds of the schema and of every schema in it. -/
inductive Everywhere (P : TypeSchema → Prop) : TypeSchema → Prop where
  | intro {s : TypeSchema} (here : P s) (below : ∀ c ∈ s.components, Everywhere P c) :
      Everywhere P s

section Everywhere

variable {P : TypeSchema → Prop} {s : TypeSchema}

theorem Everywhere.here (h : Everywhere P s) : P s := by
  cases h with
  | intro here _ => exact here

theorem Everywhere.of_mem (h : Everywhere P s) {c : TypeSchema} (hc : c ∈ s.components) :
    Everywhere P c := by
  cases h with
  | intro _ below => exact below c hc

end Everywhere

/-- The keys of the map of a node are distinct, and its values are in normal form. -/
def IsNormal : TypeSchema → Prop
  | literal value => value.normal = value
  | nativeEnum values => (Entries.keys values).Nodup ∧
      ∀ v ∈ Entries.values values, v.toJson.normal = v.toJson
  | object fields => (Entries.keys fields).Nodup
  | _ => True

end RestContract.TypeSchema
