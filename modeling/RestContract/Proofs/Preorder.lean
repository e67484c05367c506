-- The walk of a tree. It is a loop that takes nodes off a stack and puts their children on, and it
-- lists the same nodes as a descent into one subtree after another: each node once, its subtree in
-- one piece behind it.
import Mathlib.Data.List.Infix
import RestContract.Proofs.Children
import RestContract.Proofs.GrownTree

namespace RestContract.PathTree

variable {α : Type}

/-- The nodes of a subtree: its root, then the subtrees of the children in their order. The guard
is what ends the descent; every child passes it. -/
def subtree (t : PathTree α) (id : NodeId) : List NodeId :=
  id :: (t.children id).flatMap fun c => if _h : id < c ∧ c < t.size then t.subtree c else []
termination_by t.size - id
decreasing_by exact Nat.sub_lt_sub_left (Nat.lt_trans _h.1 _h.2) _h.1

/-- The loop of a walk: it takes a node off the stack and puts its children on, until the stack is
empty. After so many turns it has listed these nodes. Nothing else ends it. -/
inductive Unstacks (t : PathTree α) : Nat → List NodeId → List NodeId → Prop where
  | done : t.Unstacks 0 [] []
  | turn {n : Nat} {id : NodeId} {stack listed : List NodeId} :
      t.Unstacks n (t.children id ++ stack) listed →
        t.Unstacks (n + 1) (id :: stack) (id :: listed)

section Subtrees

variable {t : PathTree α} {i j : NodeId}

theorem WellFormed.subtree_eq (h : t.WellFormed) (i : NodeId) :
    t.subtree i = i :: (t.children i).flatMap t.subtree := by
  rw [subtree]
  congr 1
  refine List.flatMap_congr fun c hc => ?_
  obtain ⟨hlt, hsize, -⟩ := h.child_of_mem_children hc
  rw [dif_pos ⟨hlt, hsize⟩]

/-- What holds of the children of a node holds of the node: descents are inductions. -/
theorem WellFormed.induction_on_children (h : t.WellFormed) {P : NodeId → Prop}
    (step : ∀ i, (∀ c ∈ t.children i, P c) → P i) (i : NodeId) : P i := by
  induction hn : t.size - i using Nat.strong_induction_on generalizing i with
  | _ n ih =>
    refine step i fun c hc => ?_
    obtain ⟨hlt, hsize, -⟩ := h.child_of_mem_children hc
    have hless : t.size - c < t.size - i := Nat.sub_lt_sub_left (Nat.lt_trans hlt hsize) hlt
    exact ih (t.size - c) (hn ▸ hless) c rfl

theorem self_mem_subtree (t : PathTree α) (i : NodeId) : i ∈ t.subtree i := by
  rw [subtree]
  exact List.mem_cons_self

theorem WellFormed.mem_subtree_cases (h : t.WellFormed) :
    j ∈ t.subtree i ↔ j = i ∨ ∃ c ∈ t.children i, j ∈ t.subtree c := by
  rw [h.subtree_eq, List.mem_cons, List.mem_flatMap]

/-- A subtree holds the subtrees of its nodes, each in one piece. -/
theorem WellFormed.subtree_infix (h : t.WellFormed) (hj : j ∈ t.subtree i) :
    t.subtree j <:+: t.subtree i := by
  induction i using h.induction_on_children with
  | step i ih =>
    rcases h.mem_subtree_cases.mp hj with rfl | ⟨c, hc, hjc⟩
    · exact List.infix_refl _
    · have hpiece : t.subtree c <:+: (t.children i).flatMap t.subtree := by
        obtain ⟨before, behind, hsplit⟩ := List.append_of_mem hc
        exact ⟨before.flatMap t.subtree, behind.flatMap t.subtree, by
          rw [hsplit, List.flatMap_append, List.flatMap_cons, List.append_assoc]⟩
      rw [h.subtree_eq i]
      exact ((ih c hc hjc).trans hpiece).trans (List.suffix_cons _ _).isInfix

/-- A subtree holds the nodes whose segments begin with those of its root. -/
theorem WellFormed.mem_subtree_iff_prefix (h : t.WellFormed) (hi : i < t.size) :
    j ∈ t.subtree i ↔ j < t.size ∧ t.segmentsOf i <+: t.segmentsOf j := by
  induction i using h.induction_on_children with
  | step i ih =>
    rw [h.mem_subtree_cases]
    constructor
    · rintro (rfl | ⟨c, hc, hj⟩)
      · exact ⟨hi, List.prefix_refl _⟩
      · obtain ⟨-, hsize, hseg⟩ := h.child_of_mem_children hc
        obtain ⟨hj_lt, hprefix⟩ := (ih c hc hsize).mp hj
        exact ⟨hj_lt, (hseg ▸ List.prefix_append _ _).trans hprefix⟩
    · rintro ⟨hj, rest, hrest⟩
      cases rest with
      | nil =>
        rw [List.append_nil] at hrest
        exact .inl (h.segmentsOf_inj hi hj hrest).symm
      | cons s rest =>
        rw [← List.singleton_append, ← List.append_assoc] at hrest
        have hway : t.segmentsOf i ++ [s] ∈ t.addresses :=
          h.mem_addresses_of_prefix ⟨rest, hrest⟩ (mem_addresses.mpr ⟨j, hj, rfl⟩)
        obtain ⟨c, hc, hseg⟩ := mem_addresses.mp hway
        have hroot : c ≠ root := by
          rintro rfl
          simp [segmentsOf_root] at hseg
        obtain ⟨p, hlt, hpar⟩ := h.exists_parent? hc hroot
        have hsplit := (segmentsOf_of_parent? hpar hlt).symm.trans hseg
        obtain rfl : p = i :=
          h.segmentsOf_inj (Nat.lt_trans hlt hc) hi (List.append_inj_left' hsplit rfl)
        have hchild : c ∈ t.children p := h.mem_children_iff.mpr ⟨hc, hpar⟩
        exact .inr ⟨c, hchild, (ih c hchild hc).mpr ⟨hj, rest, hseg ▸ hrest⟩⟩

theorem WellFormed.lt_of_mem_ancestors (h : t.WellFormed) (hj : j < t.size)
    (hi : i ∈ t.ancestors j) : i < j := by
  induction j using Nat.strong_induction_on with
  | _ j ih =>
    by_cases hroot : j = root
    · rw [hroot, ancestors_root] at hi
      cases hi
    · obtain ⟨p, hlt, hpar⟩ := h.exists_parent? hj hroot
      rw [ancestors_of_parent? hpar hlt, List.mem_cons] at hi
      rcases hi with rfl | hi
      · exact hlt
      · exact Nat.lt_trans (ih p hlt (Nat.lt_trans hlt hj) hi) hlt

/-- The nodes above a node are those whose segments its own begin with. -/
theorem WellFormed.prefix_iff_ancestor (h : t.WellFormed) (hi : i < t.size) (hj : j < t.size) :
    t.segmentsOf i <+: t.segmentsOf j ↔ i = j ∨ i ∈ t.ancestors j := by
  induction j using Nat.strong_induction_on with
  | _ j ih =>
    by_cases hroot : j = root
    · subst hroot
      rw [segmentsOf_root, List.prefix_nil, ancestors_root, ← segmentsOf_root t]
      exact ⟨fun hseg => .inl (h.segmentsOf_inj hi hj hseg),
        fun hor => hor.elim (fun heq => heq ▸ rfl) fun hmem => by cases hmem⟩
    · obtain ⟨p, hlt, hpar⟩ := h.exists_parent? hj hroot
      have hsplit := segmentsOf_of_parent? hpar hlt
      rw [ancestors_of_parent? hpar hlt, hsplit, List.prefix_concat_iff, ← hsplit,
        ih p hlt (Nat.lt_trans hlt hj), List.mem_cons]
      refine or_congr_left ?_
      exact ⟨h.segmentsOf_inj hi hj, fun heq => heq ▸ rfl⟩

theorem WellFormed.mem_subtree_iff (h : t.WellFormed) (hi : i < t.size) :
    j ∈ t.subtree i ↔ j < t.size ∧ (i = j ∨ i ∈ t.ancestors j) := by
  rw [h.mem_subtree_iff_prefix hi]
  exact and_congr_right fun hj => h.prefix_iff_ancestor hi hj

/-- No node is in a subtree twice, since siblings have different segments. -/
theorem WellFormed.subtree_nodup (h : t.WellFormed) (i : NodeId) : (t.subtree i).Nodup := by
  induction i using h.induction_on_children with
  | step i ih =>
    have hdeep : ∀ c ∈ t.children i, ∀ j ∈ t.subtree c,
        t.segmentsOf i ++ [t.segment c] <+: t.segmentsOf j := by
      intro c hc j hj
      obtain ⟨-, hsize, hseg⟩ := h.child_of_mem_children hc
      exact hseg ▸ ((h.mem_subtree_iff_prefix hsize).mp hj).2
    rw [h.subtree_eq, List.nodup_cons, List.nodup_flatMap]
    refine ⟨?_, ih, ?_⟩
    · intro hmem
      obtain ⟨c, hc, hi⟩ := List.mem_flatMap.mp hmem
      have hlen := (hdeep c hc i hi).length_le
      simp at hlen
    · refine (h.children_nodup i).imp_of_mem fun {c d} hc hd hne => ?_
      intro j hjc hjd
      have hboth := List.prefix_of_prefix_length_le (hdeep c hc j hjc) (hdeep d hd j hjd) (by simp)
      have hsame : t.segmentsOf i ++ [t.segment c] = t.segmentsOf i ++ [t.segment d] :=
        hboth.eq_of_length (by simp)
      obtain ⟨-, hc_lt, hc_seg⟩ := h.child_of_mem_children hc
      obtain ⟨-, hd_lt, hd_seg⟩ := h.child_of_mem_children hd
      exact hne (h.segmentsOf_inj hc_lt hd_lt (hc_seg.trans (hsame.trans hd_seg.symm)))

end Subtrees

/-! ## The loop -/

section Loop

variable {t : PathTree α} {n : Nat} {stack listed : List NodeId}

theorem Unstacks.unique {m : Nat} {l : List NodeId} (h : t.Unstacks n stack listed)
    (h' : t.Unstacks m stack l) : n = m ∧ listed = l := by
  induction h generalizing m l with
  | done =>
    cases h'
    exact ⟨rfl, rfl⟩
  | turn _ ih =>
    cases h' with
    | turn hrest =>
      obtain ⟨rfl, rfl⟩ := ih hrest
      exact ⟨rfl, rfl⟩

/-- The loop lists the subtrees of the nodes on its stack, and it takes one turn for each node. -/
theorem WellFormed.unstacks (h : t.WellFormed) (stack : List NodeId) :
    t.Unstacks (stack.flatMap t.subtree).length stack (stack.flatMap t.subtree) := by
  induction hn : (stack.flatMap t.subtree).length using Nat.strong_induction_on
    generalizing stack with
  | _ n ih =>
    cases stack with
    | nil =>
      obtain rfl : 0 = n := hn
      exact .done
    | cons id stack =>
      have hturn : (id :: stack).flatMap t.subtree =
          id :: (t.children id ++ stack).flatMap t.subtree := by
        rw [List.flatMap_cons, h.subtree_eq, List.cons_append, List.flatMap_append]
      rw [hturn, List.length_cons] at hn
      rw [hturn, ← hn]
      exact .turn (ih _ (by omega) _ rfl)

theorem Unstacks.walkFrom_eq (h : t.Unstacks n stack listed) : t.walkFrom n stack = listed := by
  induction h with
  | done => rfl
  | turn _ ih => rw [walkFrom, ih]

end Loop

/-! ## The walk -/

section Walk

variable {t : PathTree α} {i j : NodeId}

theorem WellFormed.subtree_root_perm (h : t.WellFormed) :
    (t.subtree root).Perm (List.range t.size) := by
  rw [List.perm_ext_iff_of_nodup (h.subtree_nodup root) List.nodup_range]
  intro j
  rw [h.mem_subtree_iff_prefix h.size_pos, segmentsOf_root, List.mem_range]
  exact and_iff_left List.nil_prefix

theorem WellFormed.unstacks_root (h : t.WellFormed) :
    t.Unstacks t.size [root] (t.subtree root) := by
  have hloop := h.unstacks [root]
  rwa [List.flatMap_singleton, h.subtree_root_perm.length_eq, List.length_range] at hloop

theorem WellFormed.walk_eq (h : t.WellFormed) : t.walk = t.subtree root :=
  h.unstacks_root.walkFrom_eq

/-- The walk lists each node once: in front of its descendants, with its subtree in one piece and
the subtrees of its children in their order. -/
structure WalksInPreorder (t : PathTree α) : Prop where
  /-- The loop ends after as many turns as there are nodes. -/
  unstacks_iff : ∀ n l, t.Unstacks n [root] l ↔ n = t.size ∧ l = t.walk
  perm_range : t.walk.Perm (List.range t.size)
  head?_eq : t.walk.head? = some root
  ancestor_first : ∀ j < t.size, ∀ i ∈ t.ancestors j, [i, j].Sublist t.walk
  subtree_infix : ∀ i < t.size, t.subtree i <:+: t.walk
  mem_subtree_iff : ∀ i < t.size, ∀ j, j ∈ t.subtree i ↔ j < t.size ∧ (i = j ∨ i ∈ t.ancestors j)
  subtree_eq : ∀ i < t.size, t.subtree i = i :: (t.children i).flatMap t.subtree
  children_sublist : ∀ i < t.size, (t.children i).Sublist t.walk

theorem WellFormed.infix_walk (h : t.WellFormed) (hi : i < t.size) :
    t.subtree i <:+: t.walk := by
  rw [h.walk_eq]
  refine h.subtree_infix ((h.mem_subtree_iff_prefix h.size_pos).mpr ⟨hi, ?_⟩)
  rw [segmentsOf_root]
  exact List.nil_prefix

theorem WellFormed.children_sublist_subtree (h : t.WellFormed) (i : NodeId) :
    (t.children i).Sublist (t.subtree i) := by
  have hheads : ∀ cs : List NodeId, cs.Sublist (cs.flatMap t.subtree) := by
    intro cs
    induction cs with
    | nil => exact List.Sublist.slnil
    | cons c cs ih =>
      rw [List.flatMap_cons]
      exact (List.singleton_sublist.mpr (t.self_mem_subtree c)).append ih
  rw [h.subtree_eq]
  exact (hheads _).cons _

theorem WellFormed.walksInPreorder (h : t.WellFormed) : t.WalksInPreorder := by
  constructor
  · intro n l
    rw [h.walk_eq]
    constructor
    · exact fun hl => hl.unique h.unstacks_root
    · rintro ⟨rfl, rfl⟩
      exact h.unstacks_root
  · rw [h.walk_eq]
    exact h.subtree_root_perm
  · rw [h.walk_eq, h.subtree_eq]
    rfl
  · intro j hj i hij
    have hlt := h.lt_of_mem_ancestors hj hij
    have hi : i < t.size := Nat.lt_trans hlt hj
    have hbelow : j ∈ t.subtree i := (h.mem_subtree_iff hi).mpr ⟨hj, .inr hij⟩
    have hpair : [i, j].Sublist (t.subtree i) := by
      rw [h.subtree_eq, List.mem_cons] at hbelow
      rw [h.subtree_eq]
      exact (List.singleton_sublist.mpr (hbelow.resolve_left (Nat.ne_of_gt hlt))).cons_cons i
    exact hpair.trans (h.infix_walk hi).sublist
  · exact fun i hi => h.infix_walk hi
  · exact fun i hi j => h.mem_subtree_iff hi
  · exact fun i _ => h.subtree_eq i
  · exact fun i hi => (h.children_sublist_subtree i).trans (h.infix_walk hi).sublist

end Walk

end RestContract.PathTree
