-- The children of a node. They are the nodes whose parent it is, each of them once and with a
-- number after it, and a new child stands behind the ones that were there.
import RestContract.Proofs.PathInsertion

namespace RestContract.PathTree

variable {α : Type} {t : PathTree α} {i c : NodeId}

theorem mem_children_iff_exists_entry :
    c ∈ t.children i ↔ ∃ s, (s, c) ∈ t.childEntries i := by
  simp [children, Entries.values]

namespace WellFormed

theorem child?_of_mem_entries (h : t.WellFormed) {s : String} (hc : (s, c) ∈ t.childEntries i) :
    t.child? i s = some c := by
  unfold childEntries at hc
  cases hn : t.get? i with
  | none => simp [hn] at hc
  | some n =>
    rw [hn] at hc
    exact child?_eq_some_iff.mpr
      ⟨n, hn, (Entries.get?_eq_some_iff (h.children_once i n hn)).mpr hc⟩

/-- The key of a child is its segment. -/
theorem segment_of_mem_entries (h : t.WellFormed) {s : String}
    (hc : (s, c) ∈ t.childEntries i) : t.segment c = s := by
  obtain ⟨n, hn, hseg, -⟩ := h.child_back i s c (h.child?_of_mem_entries hc)
  exact (segment_of_get? hn).trans hseg

/-- The children of a node are the nodes whose parent it is. -/
theorem mem_children_iff (h : t.WellFormed) :
    c ∈ t.children i ↔ c < t.size ∧ t.parent? c = some i := by
  rw [mem_children_iff_exists_entry]
  constructor
  · rintro ⟨s, hs⟩
    have hchild := h.child?_of_mem_entries hs
    obtain ⟨n, hn, -, hpar⟩ := h.child_back i s c hchild
    exact ⟨lt_size_of_get? hn, (parent?_of_get? hn).trans hpar⟩
  · rintro ⟨hlt, hpar⟩
    obtain ⟨n, hn⟩ := exists_get?_of_lt hlt
    rw [parent?_of_get? hn] at hpar
    have hroot : c ≠ root := by
      rintro rfl
      obtain ⟨r, hr, hnone⟩ := h.root_first
      rw [hn] at hr
      cases hr
      rw [hpar] at hnone
      cases hnone
    obtain ⟨p, hp, -, hchild⟩ := h.parent_before c n hn hroot
    obtain rfl : i = p := Option.some.inj (hpar.symm.trans hp)
    obtain ⟨m, hm, hget⟩ := child?_eq_some_iff.mp hchild
    refine ⟨n.segment, ?_⟩
    rw [childEntries, hm]
    exact Entries.mem_of_get? hget

theorem child_of_mem_children (h : t.WellFormed) (hc : c ∈ t.children i) :
    i < c ∧ c < t.size ∧ t.segmentsOf c = t.segmentsOf i ++ [t.segment c] := by
  obtain ⟨s, hs⟩ := mem_children_iff_exists_entry.mp hc
  rw [h.segment_of_mem_entries hs]
  exact h.child_spec (h.child?_of_mem_entries hs)

theorem children_nodup (h : t.WellFormed) (i : NodeId) : (t.children i).Nodup := by
  have hkeys : (Entries.keys (t.childEntries i)).Nodup := by
    unfold childEntries
    cases hn : t.get? i with
    | none => exact List.nodup_nil
    | some n => exact h.children_once i n hn
  refine List.Nodup.map_on ?_ hkeys.of_map
  rintro ⟨s, c⟩ hs ⟨r, _⟩ hr rfl
  rw [← h.segment_of_mem_entries hs, ← h.segment_of_mem_entries hr]

end WellFormed

/-! ## A new child among the others -/

section NewChild

variable {p : NodeId} {s : String}

theorem kind_addChild (t : PathTree α) (p : NodeId) (s : String) (x : α) (i : NodeId) :
    (t.addChild p s x).kind i = if i = t.size then .of s else t.kind i := by
  unfold kind
  rw [get?_addChild]
  split
  · rfl
  · cases t.get? i with
    | none => rfl
    | some n =>
      simp only [Option.map_some, Option.getD_some]
      split <;> rfl

theorem parent?_addChild (t : PathTree α) (p : NodeId) (s : String) (x : α) (i : NodeId) :
    (t.addChild p s x).parent? i = if i = t.size then some p else t.parent? i := by
  unfold parent?
  rw [get?_addChild]
  split
  · rfl
  · cases t.get? i with
    | none => rfl
    | some n =>
      simp only [Option.map_some, Option.bind_some]
      split <;> rfl

theorem children_addChild (hp : p < t.size) (hs : t.child? p s = none) (x : α) (i : NodeId) :
    (t.addChild p s x).children i =
      if i = p then t.children i ++ [t.size] else t.children i := by
  unfold children childEntries
  rw [get?_addChild]
  by_cases hnew : i = t.size
  · have hip : i ≠ p := Nat.ne_of_gt (hnew ▸ hp)
    rw [if_pos hnew, if_neg hip, hnew, get?_size_eq_none]
    rfl
  · rw [if_neg hnew]
    by_cases hip : i = p
    · subst hip
      obtain ⟨n, hn⟩ := exists_get?_of_lt hp
      have hfree : Entries.has n.children s = false := by
        simpa [child?, childEntries, hn, Entries.get?_eq_none_iff] using hs
      simp [hn, Entries.put_of_not_has hfree, Entries.values]
    · rw [if_neg hip]
      cases t.get? i with
      | none => rfl
      | some n => simp [Ne.symm hip]

end NewChild

end RestContract.PathTree
