-- The traversals of a tree. The walk, the nested objects and the outline of a contract list the
-- same nodes in one order, each with what belongs to it.
import RestContract.Proofs.AttachmentOrder
import RestContract.Proofs.NestedResources
import RestContract.Samples

namespace RestContract

/-! ## Contracts -/

/-- An entry of an outline: the segment of a node, indented by twice its depth, and its methods. -/
def outlineEntry (depth : Nat) (segment : String) (methods : List String) : String :=
  String.ofList (List.replicate (2 * depth) ' ') ++ "/" ++ segment ++
    (if methods = [] then "" else "  [" ++ String.intercalate " " methods ++ "]") ++ "\n"

/-- The outline and the nested objects of a contract list the nodes of the walk, with the methods
of each node in the order in which the events tell of them. -/
structure Contract.ListsInPreorder (c : Contract) (es : List Event) : Prop where
  outline_eq : ResourceTree.outline c.resources =
    String.join (c.resources.walk.map fun id =>
      outlineEntry (c.resources.depth id) (c.resources.segment id)
        (attachedAt (c.resources.pathOf id) es))
  resources_eq : (c.resources.nested Attachments.entries).resources =
    c.resources.walk.map (c.resources.resourceFields Attachments.entries)

theorem ResourceTree.outlineLine_eq (t : ResourceTree) (id : NodeId) :
    outlineLine t id = outlineEntry (t.depth id) (t.segment id) (t.attachments id).methodNames := by
  rw [outlineLine, outlineEntry]
  simp only [List.isEmpty_iff]
  rfl

/-- What is attached to a node is not written as the children of the node. -/
theorem Attachments.children_not_mem_entries (a : Attachments) :
    "children" ∉ Entries.keys a.entries := by
  have hmethods : ∀ v, "children" ∉ Entries.keys (Json.unlessEmpty "methods" v) := by
    intro v
    unfold Json.unlessEmpty
    split <;> simp [Entries.keys]
  have hcors : "children" ∉ Entries.keys (Json.given "cors" CorsOptions.toJson a.cors) := by
    cases a.cors <;> simp [Json.given, Entries.keys]
  rw [entries, Entries.keys_append, List.mem_append, not_or]
  exact ⟨hmethods _, hcors⟩

theorem Declaration.listsInPreorder_of_assemble {d : Declaration} {c : Contract}
    (h : d.assemble = .ok c) : c.ListsInPreorder d.assembly.events := by
  have hwf := (grown_of_assemble h).wellFormed
  have hwalk : ∀ id ∈ c.resources.walk, id < c.resources.size := fun id hid =>
    List.mem_range.mp (hwf.walksInPreorder.perm_range.mem_iff.mp hid)
  constructor
  · rw [ResourceTree.outline]
    refine congrArg String.join (List.map_congr_left fun id hid => ?_)
    rw [ResourceTree.outlineLine_eq, methodNames_of_assemble h (hwalk id hid)]
  · rw [hwf.nestsInPreorder.resources_eq _ Attachments.children_not_mem_entries]
    exact List.map_congr_left fun id hid =>
      (PathTree.resourceFields_eq _ (hwalk id hid)).symm

/-! ## The law -/

/-- The three traversals of a tree agree and lose nothing: the walk is the pre-order of the tree,
the nested objects are its nodes, and so are the entries of the outline of a contract. -/
theorem the_traversals_of_a_tree_agree_and_lose_nothing (α : Type) [Inhabited α] :
    (∀ t : PathTree α, t.Grown → t.WalksInPreorder ∧ t.NestsInPreorder) ∧
      ∀ (d : Declaration) (c : Contract), d.assemble = .ok c →
        c.ListsInPreorder d.assembly.events := by
  refine ⟨?_, fun d c h => Declaration.listsInPreorder_of_assemble h⟩
  exact fun t h => ⟨h.wellFormed.walksInPreorder, h.wellFormed.nestsInPreorder⟩

theorem the_traversals_of_the_counted_tree_and_of_the_reports_agree :
    PathTree.countedTree.WalksInPreorder ∧ PathTree.countedTree.NestsInPreorder ∧
      PathTree.countedTree.walk = [0, 1, 2, 5, 3, 4] ∧
      ∃ c, Samples.reportApi.assemble = .ok c ∧
        c.ListsInPreorder Samples.reportApi.assembly.events := by
  obtain ⟨htrees, hcontracts⟩ := the_traversals_of_a_tree_agree_and_lose_nothing Nat
  have hok : ∃ c, Samples.reportApi.assemble = .ok c := ⟨_, rfl⟩
  obtain ⟨c, hc⟩ := hok
  obtain ⟨hwalks, hnests⟩ := htrees _ PathTree.grown_countedTree
  exact ⟨hwalks, hnests, by decide, c, hc, hcontracts _ c hc⟩

end RestContract
