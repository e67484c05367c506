-- What holds of every path tree that a program can come by. A tree grows from the root alone,
-- by insertions and by changes of payloads, in any order. In each such tree the parents, the
-- children and the numbers of the nodes agree, so climbing from a node ends at the root.
import RestContract.Proofs.InsertedPrefixes

namespace RestContract

/-! ## Segments -/

/-- A text that can stand as one segment of a path. -/
structure IsSegment (s : String) : Prop where
  ne_empty : s ≠ ""
  no_slash : '/' ∉ s.toList
  front_not_blank : ∀ c, s.toList.head? = some c → Text.isBlank c = false
  back_not_blank : ∀ c, s.toList.getLast? = some c → Text.isBlank c = false

theorem Text.head_trimChars {cs : List Char} {c : Char} (h : (trimChars cs).head? = some c) :
    isBlank c = false := by
  obtain ⟨rest, hrest⟩ := List.head?_eq_some_iff.mp h
  have hfront := dropWhile_trimChars cs
  rw [hrest, List.dropWhile_cons] at hfront
  by_contra hblank
  rw [Bool.not_eq_false] at hblank
  rw [if_pos hblank] at hfront
  have hlen := (List.dropWhile_sublist (l := rest) isBlank).length_le
  rw [hfront, List.length_cons] at hlen
  exact Nat.not_succ_le_self _ hlen

theorem Text.getLast_trimChars {cs : List Char} {c : Char}
    (h : (trimChars cs).getLast? = some c) : isBlank c = false := by
  obtain ⟨hne, hc⟩ := List.mem_getLast?_eq_getLast h
  have hback := List.rdropWhile_last_not isBlank (cs.dropWhile isBlank) hne
  rw [hc]
  exact Bool.eq_false_iff.mpr hback

theorem Path.isSegment_of_mem {s p : String} (h : s ∈ segments p) : IsSegment s := by
  obtain ⟨part, hpart, hne, rfl⟩ := exists_part_of_mem_segments h
  constructor
  · simpa using hne
  · rw [String.toList_ofList]
    exact fun hmem => no_slash_of_mem_parts hpart (Text.mem_of_mem_trimChars hmem)
  · rw [String.toList_ofList]
    exact fun c => Text.head_trimChars
  · rw [String.toList_ofList]
    exact fun c => Text.getLast_trimChars

namespace PathTree

variable {α : Type}

/-! ## Climbing -/

/-- Going from a node to its parent, and on from there until a node has none, passes these
nodes. Nothing but a missing parent ends such a climb. -/
inductive Climbs (t : PathTree α) : NodeId → List NodeId → Prop where
  | stop {i : NodeId} : t.parent? i = none → t.Climbs i []
  | up {i p : NodeId} {l : List NodeId} :
      t.parent? i = some p → t.Climbs p l → t.Climbs i (p :: l)

section Climbing

variable {t : PathTree α} {i : NodeId}

theorem WellFormed.parent?_root (h : t.WellFormed) : t.parent? root = none := by
  obtain ⟨n, hn, hpar⟩ := h.root_first
  exact (parent?_of_get? hn).trans hpar

theorem WellFormed.exists_parent? (h : t.WellFormed) (hi : i < t.size) (hroot : i ≠ root) :
    ∃ p < i, t.parent? i = some p := by
  obtain ⟨n, hn⟩ := exists_get?_of_lt hi
  obtain ⟨p, hp, hlt, -⟩ := h.parent_before i n hn hroot
  exact ⟨p, hlt, (parent?_of_get? hn).trans hp⟩

/-- There is at most one way up. -/
theorem Climbs.unique {l l' : List NodeId} (h : t.Climbs i l) (h' : t.Climbs i l') : l = l' := by
  induction h generalizing l' with
  | stop hnone =>
    cases h' with
    | stop => rfl
    | up hp => simp [hnone] at hp
  | up hp _ ih =>
    cases h' with
    | stop hnone => simp [hnone] at hp
    | up hp' hrest =>
      rw [hp] at hp'
      cases hp'
      rw [ih hrest]

/-- A climb ends because each parent has a smaller number. -/
theorem WellFormed.climbs_ancestors (h : t.WellFormed) (hi : i < t.size) :
    t.Climbs i (t.ancestors i) := by
  induction i using Nat.strongRecOn with
  | ind i ih =>
    by_cases hroot : i = root
    · subst hroot
      rw [ancestors_root]
      exact .stop h.parent?_root
    · obtain ⟨p, hlt, hp⟩ := h.exists_parent? hi hroot
      rw [ancestors_of_parent? hp hlt]
      exact .up hp (ih p hlt (Nat.lt_trans hlt hi))

theorem WellFormed.length_segmentsOf (h : t.WellFormed) (hi : i < t.size) :
    (t.segmentsOf i).length = t.depth i := by
  induction i using Nat.strongRecOn with
  | ind i ih =>
    by_cases hroot : i = root
    · subst hroot
      rw [segmentsOf_root, depth, ancestors_root]
      rfl
    · obtain ⟨p, hlt, hp⟩ := h.exists_parent? hi hroot
      rw [segmentsOf_of_parent? hp hlt, depth, ancestors_of_parent? hp hlt, List.length_append,
        ih p hlt (Nat.lt_trans hlt hi)]
      rfl

theorem Spelled.isSegment (hspelled : t.Spelled) (h : t.WellFormed) {n : PathNode α}
    (hn : t.get? i = some n) (hroot : i ≠ root) : IsSegment n.segment := by
  have hi := lt_size_of_get? hn
  obtain ⟨p, hlt, hp⟩ := h.exists_parent? hi hroot
  have hmem : n.segment ∈ t.segmentsOf i := by
    rw [segmentsOf_of_parent? hp hlt, segment_of_get? hn]
    exact List.mem_append_right _ List.mem_cons_self
  have hself := hspelled.segments_of_mem hi _ hmem
  exact Path.isSegment_of_mem (hself ▸ List.mem_cons_self)

end Climbing

/-! ## Kinds -/

/-- Every node but the root is of the kind that its segment says. -/
def Classified (t : PathTree α) : Prop :=
  ∀ i n, t.get? i = some n → i ≠ root → n.kind = .of n.segment

section Kinds

variable {t : PathTree α}

theorem classified_new (x : α) : (new x).Classified := by
  intro i n hn hroot
  have hi : i < 1 := lt_size_of_get? hn
  exact absurd (Nat.lt_one_iff.mp hi) hroot

theorem Classified.modifyPayload (h : t.Classified) (id : NodeId) (f : α → α) :
    (t.modifyPayload id f).Classified := by
  intro i n hn hroot
  rw [get?_modifyPayload, Option.map_eq_some_iff] at hn
  obtain ⟨m, hm, rfl⟩ := hn
  have hkind := h i m hm hroot
  split <;> exact hkind

theorem Classified.addChild (h : t.Classified) (p : NodeId) (s : String) (x : α) :
    (t.addChild p s x).Classified := by
  intro i n hn hroot
  rw [get?_addChild] at hn
  split at hn
  · cases hn
    rfl
  · rw [Option.map_eq_some_iff] at hn
    obtain ⟨m, hm, rfl⟩ := hn
    have hkind := h i m hm hroot
    split <;> exact hkind

theorem Classified.insertAt [Inhabited α] (h : t.Classified) (start : NodeId) (path : String) :
    (t.insertAt start path).tree.Classified := by
  have hfold : ∀ (q : List String) (a : Arrival α), a.tree.Classified →
      (q.foldl Arrival.descend a).tree.Classified := by
    intro q
    induction q with
    | nil => exact fun a ha => ha
    | cons s q ih =>
      intro a ha
      refine ih (a.descend s) ?_
      unfold Arrival.descend
      split
      · exact ha
      · exact ha.addChild a.node s default
  exact hfold _ _ h

end Kinds

/-! ## Grown trees -/

/-- A tree that grew from the root alone. Insertions and changes of payloads are made at nodes
that are there. -/
inductive Grown [Inhabited α] : PathTree α → Prop where
  | new : Grown (new default)
  | insert {t : PathTree α} (path : String) : Grown t → Grown (t.insert path).tree
  | insertAt {t : PathTree α} {start : NodeId} (path : String) :
      Grown t → start < t.size → Grown (t.insertAt start path).tree
  | modifyPayload {t : PathTree α} {id : NodeId} (f : α → α) :
      Grown t → id < t.size → Grown (t.modifyPayload id f)

/-- The parents, the children and the numbers of the nodes agree, and each node but the root
stands for one segment. -/
structure Coherent (t : PathTree α) : Prop where
  root_first : ∃ n, t.get? root = some n ∧ n.segment = "" ∧ n.kind = .static
  parent_none_iff : ∀ i n, t.get? i = some n → (n.parent = none ↔ i = root)
  parent_before : ∀ i n, t.get? i = some n → i ≠ root → ∃ p m, n.parent = some p ∧ p < i ∧
    t.get? p = some m ∧ Entries.get? m.children n.segment = some i
  child_back : ∀ i n, t.get? i = some n → ∀ s c, (s, c) ∈ n.children →
    ∃ m, t.get? c = some m ∧ m.segment = s ∧ m.parent = some i
  segment_once : ∀ i n, t.get? i = some n → (Entries.keys n.children).Nodup
  isSegment : ∀ i n, t.get? i = some n → i ≠ root → IsSegment n.segment
  kind_eq : ∀ i n, t.get? i = some n → i ≠ root → n.kind = .of n.segment

/-- What the links promise to those who look at a tree and change it. -/
structure Dependable [Inhabited α] (t : PathTree α) : Prop where
  climbs_iff : ∀ i < t.size, ∀ l, t.Climbs i l ↔ l = t.ancestors i
  depth_eq : ∀ i < t.size, t.depth i = (Path.segments (t.pathOf i)).length
  payload?_modifyPayload_self : ∀ i f,
    (t.modifyPayload i f).payload? i = (t.payload? i).map f
  payload?_modifyPayload_other : ∀ i f j, j ≠ i →
    (t.modifyPayload i f).payload? j = t.payload? j
  payload?_insertAt : ∀ start path, ∀ j < t.size,
    (t.insertAt start path).tree.payload? j = t.payload? j

section Grown

variable [Inhabited α] {t : PathTree α}

theorem Grown.wellFormed (h : Grown t) : t.WellFormed := by
  induction h with
  | new => exact wellFormed_new default
  | insert path _ ih => exact (ih.reaches_insertAt ih.size_pos path).wellFormed
  | insertAt path _ hlt ih => exact (ih.reaches_insertAt hlt path).wellFormed
  | modifyPayload f _ _ ih => exact ih.modifyPayload _ f

theorem Grown.spelled (h : Grown t) : t.Spelled := by
  induction h with
  | new => exact spelled_new default
  | insert path h ih => exact ih.inserted (c := { path }) h.wellFormed h.wellFormed.size_pos
  | insertAt path h hlt ih => exact ih.inserted (c := ⟨_, path⟩) h.wellFormed hlt
  | modifyPayload f _ _ ih =>
    intro q hq
    refine ih q ?_
    simpa [mem_addresses] using hq

theorem Grown.classified (h : Grown t) : t.Classified := by
  induction h with
  | new => exact classified_new default
  | insert path _ ih => exact ih.insertAt root path
  | insertAt path _ _ ih => exact ih.insertAt _ path
  | modifyPayload f _ _ ih => exact ih.modifyPayload _ f

/-- Growing keeps the root as it was first. -/
theorem Grown.extends_new (h : Grown t) : (PathTree.new default).Extends (fun _ _ => True) t := by
  have htrans : ∀ {u v w : PathTree α}, u.Extends (fun _ _ => True) v → v.Extends Eq w →
      u.Extends (fun _ _ => True) w := fun huv hvw =>
    huv.trans (fun _ _ _ _ _ => trivial) (hvw.mono fun _ _ _ => trivial)
  induction h with
  | new => exact Extends.refl (fun _ => trivial) _
  | insert path _ ih => exact htrans ih (extends_insertAt _ root path)
  | insertAt path _ _ ih => exact htrans ih (extends_insertAt _ _ path)
  | modifyPayload f _ _ ih =>
    exact ih.trans (fun _ _ _ _ _ => trivial)
      (extends_modifyPayload (fun _ => trivial) fun _ _ => trivial)

theorem Grown.coherent (h : Grown t) : t.Coherent := by
  have hwf := h.wellFormed
  obtain ⟨r, hr, hroot⟩ := h.extends_new root _ rfl
  constructor
  · exact ⟨r, hr, hroot.segment_eq, hroot.kind_eq⟩
  · intro i n hn
    constructor
    · intro hnone
      by_contra hi
      obtain ⟨p, hp, -⟩ := hwf.parent_before i n hn hi
      rw [hnone] at hp
      cases hp
    · rintro rfl
      rw [hn] at hr
      cases hr
      exact hroot.parent_eq
  · intro i n hn hi
    obtain ⟨p, hp, hlt, hchild⟩ := hwf.parent_before i n hn hi
    obtain ⟨m, hm, hget⟩ := child?_eq_some_iff.mp hchild
    exact ⟨p, m, hp, hlt, hm, hget⟩
  · intro i n hn s c hmem
    have hget := (Entries.get?_eq_some_iff (hwf.children_once i n hn)).mpr hmem
    exact hwf.child_back i s c (child?_eq_some_iff.mpr ⟨n, hn, hget⟩)
  · exact hwf.children_once
  · intro i n hn hi
    exact h.spelled.isSegment hwf hn hi
  · exact h.classified

theorem Grown.dependable (h : Grown t) : t.Dependable := by
  constructor
  · intro i hi l
    have hclimb := h.wellFormed.climbs_ancestors hi
    exact ⟨fun hl => hl.unique hclimb, fun hl => hl ▸ hclimb⟩
  · intro i hi
    rw [h.spelled.segments_pathOf hi, h.wellFormed.length_segmentsOf hi]
  · intro i f
    rw [payload?_modifyPayload, if_pos rfl]
  · intro i f j hj
    rw [payload?_modifyPayload, if_neg (Ne.symm hj)]
  · intro start path j hj
    exact (t.extends_insertAt start path).payload?_eq hj

end Grown

/-! ## The law -/

/-- The links of every grown tree agree, and all that rests on them holds. -/
theorem every_grown_tree_is_coherent_and_dependable [Inhabited α] {t : PathTree α}
    (h : Grown t) : t.Coherent ∧ t.Dependable := ⟨h.coherent, h.dependable⟩

/-- A tree of numbers with shared prefixes, captures and blanks, grown in several ways. -/
def countedTree : PathTree Nat :=
  (((((new 0).insert " users / \x7bid\x7d ").tree.modifyPayload 2 (· + 7)).insertAt 1
    "//search/\x7bproxy+\x7d").tree.modifyPayload 1 (· + 1)).insert "users/\x7bid\x7d/posts" |>.tree

theorem grown_countedTree : Grown countedTree :=
  ((((Grown.new.insert _).modifyPayload _ (by decide)).insertAt _ (by decide)).modifyPayload _
    (by decide)).insert _

theorem the_counted_tree_is_coherent_and_dependable :
    Grown countedTree ∧ countedTree.size = 6 ∧ countedTree.Coherent ∧ countedTree.Dependable :=
  ⟨grown_countedTree, by decide, every_grown_tree_is_coherent_and_dependable grown_countedTree⟩

end PathTree

end RestContract
