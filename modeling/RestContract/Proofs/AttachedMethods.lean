-- The attached methods of a contract as one list. Each of them stands at a node of the tree, and
-- the declaration asks for it there.
import RestContract.Proofs.AssemblyRun

namespace RestContract

/-- The payloads of the nodes, in the order of their creation. -/
def PathTree.payloads {α : Type} (t : PathTree α) : List α := t.nodes.toList.map (·.payload)

/-- The attached methods of a tree, one node after another. -/
def ResourceTree.methods (t : ResourceTree) : List AttachedMethod :=
  t.payloads.flatMap fun a => Entries.values a.methods

theorem ResourceTree.length_methods (t : ResourceTree) : t.methods.length = methodCount t := by
  rw [methods, methodCount, PathTree.payloads, List.flatMap_map, List.length_flatMap,
    List.length_flatMap]
  simp [Entries.values]

/-- Every attached method stands at a node, under a key. -/
theorem ResourceTree.exists_entry_of_mem_methods {t : ResourceTree} {am : AttachedMethod}
    (h : am ∈ t.methods) : ∃ id < t.size, ∃ m, (m, am) ∈ (t.attachments id).methods := by
  obtain ⟨a, ha, ham⟩ := List.mem_flatMap.mp h
  obtain ⟨entry, hentry, rfl⟩ := List.mem_map.mp ham
  obtain ⟨n, hn, rfl⟩ := List.mem_map.mp ha
  obtain ⟨id, hid, rfl⟩ := List.getElem_of_mem hn
  have hlt : id < t.nodes.size := hid
  refine ⟨id, hlt, entry.1, ?_⟩
  simpa [attachments, PathTree.payload?, PathTree.get?, hlt] using hentry

/-- Every attached method of a contract is asked for by the declaration. -/
theorem Declaration.exists_asks_of_assemble {d : Declaration} {c : Contract}
    (hc : d.assemble = .ok c) {am : AttachedMethod}
    (ham : am ∈ ResourceTree.methods c.resources) : ∃ q, d.demand.Asks d.policy q am := by
  obtain ⟨b, h, rfl⟩ := holds_of_assemble hc
  obtain ⟨id, hid, m, hentry⟩ := ResourceTree.exists_entry_of_mem_methods ham
  change (m, am) ∈ (b.attachments id).methods at hentry
  rw [Build.attachments_eq_valueAt h.wellFormed hid] at hentry
  have hget := (Entries.get?_eq_some_iff (h.methods_once _)).mpr hentry
  exact ⟨_, ((h.attached_iff _ m am).mp hget).2⟩

end RestContract
