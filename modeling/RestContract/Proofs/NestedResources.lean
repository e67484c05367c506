-- The nested objects of a tree. An object says what its node is and holds the objects of the
-- children. Read in pre-order, an object and then those it holds, they are the nodes of the walk.
import RestContract.Path.Nesting
import RestContract.Proofs.Preorder

namespace RestContract

/-! ## Resources -/

/-- What a resource says about one node. -/
structure ResourceEntry (α : Type) where
  pathPart : String
  path : String
  payload : α

/-- The fields of a resource besides its children, given how a payload is written. -/
def ResourceEntry.fields {α : Type} (entries : α → List (String × Json)) (e : ResourceEntry α) :
    List (String × Json) :=
  [("pathPart", .str e.pathPart), ("path", .str e.path)] ++ entries e.payload

/-- A resource with the resources below it. -/
inductive Resource (α : Type) where
  | node (own : ResourceEntry α) (below : List (Resource α))

namespace Resource

variable {α : Type}

mutual

/-- The object of a resource, with the objects of the resources below it in one field. -/
def toJson (entries : α → List (String × Json)) : Resource α → Json
  | node own below =>
    .obj (own.fields entries ++ Json.unlessEmpty "children" (.arr (allToJson entries below)))

/-- The objects of some resources. -/
def allToJson (entries : α → List (String × Json)) : List (Resource α) → List Json
  | [] => []
  | r :: rs => toJson entries r :: allToJson entries rs

end

mutual

/-- What a resource and those below it say, in pre-order. -/
def preorder : Resource α → List (ResourceEntry α)
  | node own below => own :: allPreorder below

/-- What some resources and those below them say. -/
def allPreorder : List (Resource α) → List (ResourceEntry α)
  | [] => []
  | r :: rs => preorder r ++ allPreorder rs

end

theorem allToJson_eq (entries : α → List (String × Json)) (rs : List (Resource α)) :
    allToJson entries rs = rs.map (toJson entries) := by
  induction rs with
  | nil => rfl
  | cons r rs ih => rw [allToJson, ih, List.map_cons]

theorem allPreorder_eq (rs : List (Resource α)) : allPreorder rs = rs.flatMap preorder := by
  induction rs with
  | nil => rfl
  | cons r rs ih => rw [allPreorder, ih, List.flatMap_cons]

end Resource

/-! ## Reading nested objects -/

namespace Json

mutual

/-- The fields besides the children of an object and of the objects it holds, in pre-order. -/
def resources : Json → List (List (String × Json))
  | .obj fields => fields.filter (·.1 != "children") :: resourcesOfFields fields
  | _ => []

/-- The objects that stand in the field of the children. -/
def resourcesOfFields : List (String × Json) → List (List (String × Json))
  | [] => []
  | (key, value) :: fields =>
    (if key == "children" then resourcesOfItems value else []) ++ resourcesOfFields fields

/-- The objects in an array. -/
def resourcesOfItems : Json → List (List (String × Json))
  | .arr items => resourcesOfAll items
  | _ => []

/-- The objects in a list of values. -/
def resourcesOfAll : List Json → List (List (String × Json))
  | [] => []
  | v :: vs => resources v ++ resourcesOfAll vs

end

theorem resourcesOfFields_append (fields others : List (String × Json)) :
    resourcesOfFields (fields ++ others) =
      resourcesOfFields fields ++ resourcesOfFields others := by
  induction fields with
  | nil => rfl
  | cons f fields ih =>
    rw [List.cons_append, resourcesOfFields, resourcesOfFields, ih, List.append_assoc]

theorem resourcesOfFields_eq_nil {fields : List (String × Json)}
    (h : "children" ∉ Entries.keys fields) : resourcesOfFields fields = [] := by
  induction fields with
  | nil => rfl
  | cons f fields ih =>
    rw [Entries.keys, List.map_cons, List.mem_cons, not_or] at h
    rw [resourcesOfFields, if_neg fun hkey => h.1 (beq_iff_eq.mp hkey).symm, ih h.2]
    rfl

/-- An object whose own fields are none of its children. -/
theorem resources_obj {fields : List (String × Json)} (h : "children" ∉ Entries.keys fields)
    (items : List Json) :
    (Json.obj (fields ++ unlessEmpty "children" (.arr items))).resources =
      fields :: resourcesOfAll items := by
  have hown : fields.filter (·.1 != "children") = fields := by
    refine List.filter_eq_self.mpr fun f hf => ?_
    rw [bne_iff_ne]
    exact fun hkey => h (hkey ▸ List.mem_map_of_mem hf)
  rw [resources, List.filter_append, hown, resourcesOfFields_append, resourcesOfFields_eq_nil h]
  cases items with
  | nil => simp [unlessEmpty, resourcesOfFields, resourcesOfAll]
  | cons v vs => simp [unlessEmpty, resourcesOfFields, resourcesOfItems]

end Json

namespace Resource

variable {α : Type} {entries : α → List (String × Json)}

theorem children_not_mem_fields (h : ∀ x, "children" ∉ Entries.keys (entries x))
    (own : ResourceEntry α) : "children" ∉ Entries.keys (own.fields entries) := by
  have hpayload := h own.payload
  simp only [ResourceEntry.fields, Entries.keys_append, List.mem_append, not_or]
  exact ⟨by simp [Entries.keys], hpayload⟩

mutual

/-- The objects of resources are read in the order of the resources. -/
theorem resources_toJson (h : ∀ x, "children" ∉ Entries.keys (entries x)) :
    (r : Resource α) → (r.toJson entries).resources = r.preorder.map (·.fields entries)
  | node own below => by
    rw [toJson, Json.resources_obj (children_not_mem_fields h own), preorder, List.map_cons,
      resourcesOfAll_allToJson h below]

theorem resourcesOfAll_allToJson (h : ∀ x, "children" ∉ Entries.keys (entries x)) :
    (rs : List (Resource α)) →
      Json.resourcesOfAll (allToJson entries rs) = (allPreorder rs).map (·.fields entries)
  | [] => rfl
  | r :: rs => by
    rw [allToJson, Json.resourcesOfAll, allPreorder, List.map_append, resources_toJson h r,
      resourcesOfAll_allToJson h rs]

end

end Resource

/-! ## The resources of a tree -/

namespace PathTree

variable {α : Type} [Inhabited α]

/-- What the resource of a node says. -/
def entryOf (t : PathTree α) (id : NodeId) : ResourceEntry α :=
  { pathPart := t.segment id, path := t.pathOf id, payload := (t.payload? id).getD default }

/-- The resource of a node with those below it. The first number bounds how deep they nest. -/
def resourceWithin (t : PathTree α) : Nat → NodeId → Resource α
  | 0, id => .node (t.entryOf id) []
  | depth + 1, id => .node (t.entryOf id) ((t.children id).map (t.resourceWithin depth))

/-- The resource of the root. -/
def resource (t : PathTree α) : Resource α := t.resourceWithin t.size root

variable {t : PathTree α} {id : NodeId}

theorem payload?_eq_entryOf (h : id < t.size) : t.payload? id = some (t.entryOf id).payload := by
  obtain ⟨n, hn⟩ := exists_get?_of_lt h
  simp [entryOf, payload?, hn]

theorem resourceFields_eq (entries : α → List (String × Json)) (h : id < t.size) :
    t.resourceFields entries id = (t.entryOf id).fields entries := by
  rw [resourceFields, payload?_eq_entryOf h]
  rfl

theorem WellFormed.nestWithin_eq (h : t.WellFormed) (entries : α → List (String × Json))
    (depth : Nat) (hid : id < t.size) :
    t.nestWithin entries depth id = (t.resourceWithin depth id).toJson entries := by
  induction depth generalizing id with
  | zero =>
    rw [nestWithin, resourceWithin, Resource.toJson, resourceFields_eq entries hid]
    exact congrArg Json.obj (List.append_nil _).symm
  | succ depth ih =>
    have hbelow : (t.children id).map (t.nestWithin entries depth) =
        ((t.children id).map (t.resourceWithin depth)).map (Resource.toJson entries) := by
      rw [List.map_map]
      exact List.map_congr_left fun c hc => ih (h.child_of_mem_children hc).2.1
    rw [nestWithin, resourceWithin, Resource.toJson, Resource.allToJson_eq, hbelow,
      resourceFields_eq entries hid]

/-- The bound on the nesting is never met, since children have larger numbers. -/
theorem WellFormed.preorder_resourceWithin (h : t.WellFormed) (depth : Nat) (hid : id < t.size)
    (hdepth : t.size ≤ id + depth) :
    (t.resourceWithin depth id).preorder = (t.subtree id).map t.entryOf := by
  induction depth generalizing id with
  | zero => exact absurd hid (Nat.not_lt.mpr hdepth)
  | succ depth ih =>
    rw [resourceWithin, Resource.preorder, Resource.allPreorder_eq, h.subtree_eq, List.map_cons,
      List.flatMap_map, List.map_flatMap]
    congr 1
    refine List.flatMap_congr fun c hc => ?_
    obtain ⟨hlt, hsize, -⟩ := h.child_of_mem_children hc
    have hbound : t.size ≤ c + depth :=
      calc t.size ≤ id + (depth + 1) := hdepth
        _ = id + 1 + depth := (Nat.add_right_comm id 1 depth).symm
        _ ≤ c + depth := Nat.add_le_add_right hlt depth
    exact ih hsize hbound

theorem WellFormed.preorder_resource (h : t.WellFormed) :
    t.resource.preorder = t.walk.map t.entryOf := by
  rw [resource, h.preorder_resourceWithin t.size h.size_pos (Nat.le_add_left _ _), h.walk_eq]

/-- The nested objects are the nodes of the walk: read in pre-order, each says the segment of its
node, its path and its payload. -/
structure NestsInPreorder (t : PathTree α) : Prop where
  nested_eq : ∀ entries, t.nested entries = t.resource.toJson entries
  preorder_eq : t.resource.preorder = t.walk.map t.entryOf
  payload?_eq : ∀ id < t.size, t.payload? id = some (t.entryOf id).payload
  /-- If no payload has a field of that name, the children of an object are told from it. -/
  resources_eq : ∀ entries : α → List (String × Json),
    (∀ x, "children" ∉ Entries.keys (entries x)) →
      (t.nested entries).resources = t.walk.map fun id => (t.entryOf id).fields entries

theorem WellFormed.nestsInPreorder (h : t.WellFormed) : t.NestsInPreorder := by
  have hnested : ∀ entries, t.nested entries = t.resource.toJson entries :=
    fun entries => h.nestWithin_eq entries t.size h.size_pos
  refine ⟨hnested, h.preorder_resource, fun id hid => payload?_eq_entryOf hid, ?_⟩
  intro entries hentries
  rw [hnested, Resource.resources_toJson hentries, h.preorder_resource, List.map_map]
  rfl

end PathTree

end RestContract
