-- The laws of path trees. A node stands at the address that its segments spell, counted
-- from the root. No two nodes of a tree have one address, and inserting a path adds the
-- addresses on its way that are missing and changes nothing else.
import RestContract.Path.Tree
import RestContract.Proofs.Entries

namespace RestContract.PathTree

variable {α : Type}

/-! ## The invariant of a tree -/

/-- Every node but the root has a parent that comes before it and knows it by its segment,
and every child that a node knows is there and knows its parent. -/
structure WellFormed (t : PathTree α) : Prop where
  root_first : ∃ n, t.get? root = some n ∧ n.parent = none
  parent_before : ∀ i n, t.get? i = some n → i ≠ root →
    ∃ p, n.parent = some p ∧ p < i ∧ t.child? p n.segment = some i
  child_back : ∀ p s c, t.child? p s = some c →
    ∃ n, t.get? c = some n ∧ n.segment = s ∧ n.parent = some p
  children_once : ∀ i n, t.get? i = some n → (Entries.keys n.children).Nodup

/-- The segments of every node, in the order of the nodes. -/
def addresses (t : PathTree α) : List (List String) := (List.range t.size).map t.segmentsOf

/-! ## Looking at nodes -/

theorem lt_size_of_get? {t : PathTree α} {i : NodeId} {n : PathNode α} (h : t.get? i = some n) :
    i < t.size := (Array.getElem?_eq_some_iff.mp h).1

theorem exists_get?_of_lt {t : PathTree α} {i : NodeId} (h : i < t.size) :
    ∃ n, t.get? i = some n := ⟨t.nodes[i], Array.getElem?_eq_getElem h⟩

theorem child?_eq_some_iff {t : PathTree α} {p : NodeId} {s : String} {c : NodeId} :
    t.child? p s = some c ↔ ∃ n, t.get? p = some n ∧ Entries.get? n.children s = some c := by
  unfold child? childEntries
  cases t.get? p <;> simp [Entries.get?]

theorem parent?_of_get? {t : PathTree α} {i : NodeId} {n : PathNode α} (h : t.get? i = some n) :
    t.parent? i = n.parent := by simp [parent?, h]

theorem segment_of_get? {t : PathTree α} {i : NodeId} {n : PathNode α} (h : t.get? i = some n) :
    t.segment i = n.segment := by simp [segment, h]

theorem WellFormed.size_pos {t : PathTree α} (h : t.WellFormed) : root < t.size :=
  lt_size_of_get? h.root_first.choose_spec.1

/-! ## The segments of a node -/

theorem ancestors_root (t : PathTree α) : t.ancestors root = [] := by
  rw [ancestors]
  split
  · rfl
  · simp [root]

theorem segmentsOf_root (t : PathTree α) : t.segmentsOf root = [] := by
  simp [segmentsOf, ancestors_root]

theorem ancestors_of_parent? {t : PathTree α} {i p : NodeId} (h : t.parent? i = some p)
    (hlt : p < i) : t.ancestors i = p :: t.ancestors p := by
  rw [ancestors]
  simp [h, hlt]

theorem segmentsOf_of_parent? {t : PathTree α} {i p : NodeId} (h : t.parent? i = some p)
    (hlt : p < i) : t.segmentsOf i = t.segmentsOf p ++ [t.segment i] := by
  have hi : i ≠ root := Nat.ne_of_gt (Nat.lt_of_le_of_lt (Nat.zero_le p) hlt)
  simp [segmentsOf, ancestors_of_parent? h hlt, List.filter_cons_of_pos, hi]

/-- The segments of a node only depend on the nodes up to it. -/
theorem segmentsOf_congr {t t' : PathTree α} (i : NodeId)
    (h : ∀ j ≤ i, t'.parent? j = t.parent? j ∧ t'.segment j = t.segment j) :
    t'.segmentsOf i = t.segmentsOf i := by
  induction i using Nat.strongRecOn with
  | ind i ih =>
    have hparent := (h i (Nat.le_refl i)).1
    by_cases hup : ∃ p, t.parent? i = some p ∧ p < i
    · obtain ⟨p, hp, hlt⟩ := hup
      rw [segmentsOf_of_parent? hp hlt, segmentsOf_of_parent? (hparent.trans hp) hlt,
        ih p hlt fun j hj => h j (Nat.le_trans hj (Nat.le_of_lt hlt)), (h i (Nat.le_refl i)).2]
    · have hnone : ∀ u : PathTree α, u.parent? i = t.parent? i → u.ancestors i = [] := by
        intro u hu
        rw [ancestors, hu]
        split
        · rfl
        · rename_i p hp
          rw [dif_neg fun hlt => hup ⟨p, hp, hlt⟩]
      simp [segmentsOf, hnone t rfl, hnone t' hparent, (h i (Nat.le_refl i)).2]

/-! ## Following segments -/

@[simp] theorem follow_nil (t : PathTree α) (i : NodeId) : t.follow i [] = some i := rfl

theorem follow_cons (t : PathTree α) (i : NodeId) (s : String) (q : List String) :
    t.follow i (s :: q) = (t.child? i s).bind fun c => t.follow c q := by
  simp [follow]

theorem follow_append (t : PathTree α) (i : NodeId) (q r : List String) :
    t.follow i (q ++ r) = (t.follow i q).bind fun c => t.follow c r := by
  simp [follow]

namespace WellFormed

variable {t : PathTree α}

theorem child_spec (h : t.WellFormed) {p c : NodeId} {s : String} (hc : t.child? p s = some c) :
    p < c ∧ c < t.size ∧ t.segmentsOf c = t.segmentsOf p ++ [s] := by
  obtain ⟨n, hn, hseg, hpar⟩ := h.child_back p s c hc
  have hroot : c ≠ root := by
    rintro rfl
    obtain ⟨r, hr, hnone⟩ := h.root_first
    rw [hn] at hr
    cases hr
    rw [hpar] at hnone
    cases hnone
  obtain ⟨p', hp', hlt, -⟩ := h.parent_before c n hn hroot
  have hp : p' = p := Option.some.inj (hp'.symm.trans hpar)
  subst hp
  refine ⟨hlt, lt_size_of_get? hn, ?_⟩
  rw [segmentsOf_of_parent? ((parent?_of_get? hn).trans hpar) hlt, segment_of_get? hn, hseg]

theorem follow_spec (h : t.WellFormed) {i j : NodeId} {q : List String} (hi : i < t.size)
    (hf : t.follow i q = some j) : j < t.size ∧ t.segmentsOf j = t.segmentsOf i ++ q := by
  induction q generalizing i with
  | nil =>
    cases hf
    exact ⟨hi, by simp⟩
  | cons s q ih =>
    rw [follow_cons, Option.bind_eq_some_iff] at hf
    obtain ⟨c, hc, hrest⟩ := hf
    obtain ⟨-, hlt, hseg⟩ := h.child_spec hc
    obtain ⟨hj, hsegj⟩ := ih hlt hrest
    exact ⟨hj, by rw [hsegj, hseg, List.append_assoc, List.singleton_append]⟩

/-- Its segments lead from the root to a node. -/
theorem follow_segmentsOf (h : t.WellFormed) {i : NodeId} (hi : i < t.size) :
    t.follow root (t.segmentsOf i) = some i := by
  induction i using Nat.strongRecOn with
  | ind i ih =>
    by_cases hroot : i = root
    · rw [hroot, segmentsOf_root, follow_nil]
    · obtain ⟨n, hn⟩ := exists_get?_of_lt hi
      obtain ⟨p, hp, hlt, hchild⟩ := h.parent_before i n hn hroot
      rw [segmentsOf_of_parent? ((parent?_of_get? hn).trans hp) hlt, follow_append,
        ih p hlt (Nat.lt_trans hlt hi), Option.bind_some, follow_cons, segment_of_get? hn, hchild]
      rfl

theorem follow_root_eq_some_iff (h : t.WellFormed) {i : NodeId} {q : List String} :
    t.follow root q = some i ↔ i < t.size ∧ t.segmentsOf i = q := by
  constructor
  · intro hf
    obtain ⟨hi, hseg⟩ := h.follow_spec h.size_pos hf
    exact ⟨hi, by rw [hseg, segmentsOf_root, List.nil_append]⟩
  · rintro ⟨hi, rfl⟩
    exact h.follow_segmentsOf hi

/-- Two nodes with the same segments are one node. -/
theorem segmentsOf_inj (h : t.WellFormed) {i j : NodeId} (hi : i < t.size) (hj : j < t.size)
    (hij : t.segmentsOf i = t.segmentsOf j) : i = j := by
  have hfollow := h.follow_segmentsOf hi
  rw [hij, h.follow_segmentsOf hj] at hfollow
  exact (Option.some.inj hfollow).symm

end WellFormed

/-! ## Addresses -/

theorem mem_addresses {t : PathTree α} {q : List String} :
    q ∈ t.addresses ↔ ∃ i < t.size, t.segmentsOf i = q := by
  simp [addresses]

theorem WellFormed.mem_addresses_iff_follow {t : PathTree α} (h : t.WellFormed)
    {q : List String} : q ∈ t.addresses ↔ ∃ i, t.follow root q = some i := by
  simp only [mem_addresses, h.follow_root_eq_some_iff]

theorem WellFormed.addresses_nodup {t : PathTree α} (h : t.WellFormed) : t.addresses.Nodup := by
  refine List.Nodup.map_on ?_ List.nodup_range
  intro i hi j hj hij
  exact h.segmentsOf_inj (List.mem_range.mp hi) (List.mem_range.mp hj) hij

/-- With an address, every address on the way to it is there. -/
theorem WellFormed.mem_addresses_of_prefix {t : PathTree α} (h : t.WellFormed)
    {q r : List String} (hq : q <+: r) (hr : r ∈ t.addresses) : q ∈ t.addresses := by
  obtain ⟨rest, rfl⟩ := hq
  obtain ⟨i, hi⟩ := h.mem_addresses_iff_follow.mp hr
  rw [follow_append, Option.bind_eq_some_iff] at hi
  obtain ⟨c, hc, -⟩ := hi
  exact h.mem_addresses_iff_follow.mpr ⟨c, hc⟩

end RestContract.PathTree
