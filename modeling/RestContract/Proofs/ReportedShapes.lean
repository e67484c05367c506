-- What is told about ambiguous paths. A warning is told when a node is created, about the tree as
-- it is then. Counted over all insertions, the warnings agree with the shape of the tree in the
-- end, so no ambiguous shape is built silently, whatever the order of the insertions.
import Mathlib.Algebra.Order.BigOperators.Group.Finset
import RestContract.Proofs.Children
import RestContract.Proofs.GrownTree

namespace RestContract

/-! ## Warnings -/

/-- The event is a warning with the message. -/
def Event.warns (message : String) (e : Event) : Bool :=
  e.level == .warn && e.message == message

/-- The number of warnings with a message. -/
def warnings (message : String) (es : List Event) : Nat := es.countP (Event.warns message)

theorem warnings_append (message : String) (es fs : List Event) :
    warnings message (es ++ fs) = warnings message es + warnings message fs :=
  List.countP_append

theorem warnings_cons (message : String) (e : Event) (es : List Event) :
    warnings message (e :: es) =
      warnings message es + if e.level = .warn ∧ e.message = message then 1 else 0 := by
  simp [warnings, List.countP_cons, Event.warns]

theorem exists_mem_of_warnings_pos {message : String} {es : List Event}
    (h : 0 < warnings message es) : ∃ e ∈ es, e.level = .warn ∧ e.message = message := by
  obtain ⟨e, he, hwarns⟩ := List.countP_pos_iff.mp h
  rw [Event.warns, Bool.and_eq_true, beq_iff_eq, beq_iff_eq] at hwarns
  exact ⟨e, he, hwarns⟩

/-! ## Captures without a name -/

/-- The segment is a pair of braces with no name inside. -/
def isNameless (s : String) : Bool := s == "\x7b\x7d" || s == "\x7b+\x7d"

theorem SegmentKind.insideBraces?_eq_some_iff {cs inner : List Char} :
    insideBraces? cs = some inner ↔ cs = '\x7b' :: (inner ++ ['\x7d']) := by
  constructor
  · intro h
    unfold insideBraces? at h
    split at h
    · rename_i rest
      rw [Option.ite_none_right_eq_some, beq_iff_eq] at h
      obtain ⟨hlast, hinner⟩ := h
      obtain ⟨front, rfl⟩ := List.getLast?_eq_some_iff.mp hlast
      rw [List.dropLast_concat, Option.some.injEq] at hinner
      rw [hinner]
    · cases h
  · rintro rfl
    simp [insideBraces?]

theorem SegmentKind.captureName?_eq_empty_iff {s : String} :
    (SegmentKind.of s).captureName? = some "" ↔ isNameless s = true := by
  rw [isNameless, Bool.or_eq_true, beq_iff_eq, beq_iff_eq]
  constructor
  · intro h
    unfold SegmentKind.of at h
    split at h
    · cases h
    · rename_i inner hinner
      rw [insideBraces?_eq_some_iff] at hinner
      split at h
      case isTrue hplus =>
        obtain ⟨front, rfl⟩ := List.getLast?_eq_some_iff.mp (beq_iff_eq.mp hplus)
        obtain rfl : front = [] := by simpa [captureName?] using h
        exact .inr (String.toList_inj.mp hinner)
      case isFalse =>
        obtain rfl : inner = [] := by simpa [captureName?] using h
        exact .inl (String.toList_inj.mp hinner)
  · rintro (rfl | rfl) <;> rfl

namespace PathTree

variable {α : Type}

/-! ## Ambiguous shapes -/

/-- The children of a node that capture. -/
def captures (t : PathTree α) (id : NodeId) : List NodeId :=
  (t.children id).filter fun c => (t.kind c).isCapture

/-- The captures that stand beside another one, counted without one of each node. -/
def crowding (t : PathTree α) : Nat := ∑ id ∈ Finset.range t.size, ((t.captures id).length - 1)

/-- The parent of the node captures the rest of the path. -/
def isBelowGreedy (t : PathTree α) (id : NodeId) : Bool :=
  (t.parent? id).any fun p => (t.kind p).isGreedy

/-- The nodes whose parents capture the rest of the path. -/
def belowGreedy (t : PathTree α) : List NodeId := (List.range t.size).filter t.isBelowGreedy

theorem captureBelow?_isSome (t : PathTree α) (id : NodeId) :
    (t.captureBelow? id).isSome = !(t.captures id).isEmpty := by
  have hmap : t.captures id = ((t.childEntries id).filter fun e => (t.kind e.2).isCapture).map
      Prod.snd := by
    rw [captures, children, Entries.values, List.filter_map]
    rfl
  rw [hmap, captureBelow?, Entries.keys]
  cases (t.childEntries id).filter fun e => (t.kind e.2).isCapture <;> rfl

/-- About a new node it is told that its parent captures the rest of the path, and that it captures
beside another child that does. -/
theorem warnings_creationEvents (message : String) (t : PathTree α) (p : NodeId) (s : String) :
    warnings message (t.creationEvents p s) =
      (if (t.kind p).isGreedy ∧ "path continues below a greedy segment" = message then 1 else 0) +
        if ((SegmentKind.of s).isCapture ∧ t.captures p ≠ []) ∧ "sibling path captures" = message
        then 1 else 0 := by
  have hnone : warnings message [] = 0 := rfl
  have hsome := t.captureBelow?_isSome p
  unfold creationEvents
  cases (t.kind p).isGreedy <;> cases (SegmentKind.of s).isCapture <;>
    cases hbeside : t.captureBelow? p <;>
    simp_all [warnings_cons, Event.level, Event.message, Nat.add_comm]

/-! ## What insertions tell -/

section Telling

variable [Inhabited α]

/-- What is told during insertions, one after another. -/
def told (t : PathTree α) : List Insertion → List Event
  | [] => []
  | c :: cs => (t.insertAt c.start c.path).events ++ (t.inserted c).told cs

/-- The paths that were inserted tell of their captures without a name. -/
def namelessTold (cs : List Insertion) : List Event := cs.flatMap fun c => namelessEvents c.path

/-- With each new node, the measure grows by the number of warnings about the node. -/
def Tells (message : String) (m : PathTree α → Nat) : Prop :=
  ∀ (t : PathTree α) (p : NodeId) (s : String), t.WellFormed → p < t.size →
    t.child? p s = none →
      m (t.addChild p s default) = m t + warnings message (t.creationEvents p s)

namespace Tells

variable {message : String} {m : PathTree α → Nat}

theorem descend (h : Tells message m) {a : Arrival α} (ha : a.tree.WellFormed)
    (hlt : a.node < a.tree.size) (s : String) :
    warnings message (a.descend s).events + m a.tree =
      warnings message a.events + m (a.descend s).tree := by
  unfold Arrival.descend
  cases hc : a.tree.child? a.node s with
  | some child => rfl
  | none =>
    simp only [warnings_append, h a.tree a.node s ha hlt hc]
    omega

theorem foldl_descend (h : Tells message m) (q : List String) {a : Arrival α}
    (ha : a.tree.WellFormed) (hlt : a.node < a.tree.size) :
    warnings message (q.foldl Arrival.descend a).events + m a.tree =
      warnings message a.events + m (q.foldl Arrival.descend a).tree := by
  induction q generalizing a with
  | nil => rfl
  | cons s q ih =>
    have hreach := Arrival.reaches_descend ha hlt s
    have hstep := h.descend ha hlt s
    have hrest := ih hreach.wellFormed hreach.node_lt
    rw [List.foldl_cons]
    omega

/-- Over all insertions, the measure grows by the warnings that were told about nodes. -/
theorem told (h : Tells message m) {t : PathTree α} (ht : t.WellFormed) {cs : List Insertion}
    (hcs : t.Admits cs) :
    warnings message (t.told cs) + m t =
      warnings message (namelessTold cs) + m (t.insertAll cs) := by
  induction cs generalizing t with
  | nil => rfl
  | cons c cs ih =>
    have hfirst : warnings message (t.insertAt c.start c.path).events + m t =
        warnings message (namelessEvents c.path) + m (t.inserted c) :=
      h.foldl_descend (Path.segments c.path)
        (a := { tree := t, node := c.start, events := namelessEvents c.path }) ht hcs.1
    have hrest := ih (ht.inserted hcs.1) hcs.2
    have hall : t.insertAll (c :: cs) = (t.inserted c).insertAll cs := rfl
    rw [PathTree.told, namelessTold, List.flatMap_cons, warnings_append, warnings_append, hall]
    unfold namelessTold at hrest
    omega

end Tells

end Telling

/-! ## Shapes and what is told about them -/

section Shapes

theorem WellFormed.captures_addChild {t : PathTree α} (h : t.WellFormed) {p : NodeId}
    {s : String} (hp : p < t.size) (hs : t.child? p s = none) (x : α) (i : NodeId) :
    (t.addChild p s x).captures i =
      t.captures i ++ if i = p ∧ (SegmentKind.of s).isCapture then [t.size] else [] := by
  have hold : (t.children i).filter (fun c => ((t.addChild p s x).kind c).isCapture) =
      t.captures i := by
    refine List.filter_congr fun c hc => ?_
    rw [kind_addChild, if_neg (Nat.ne_of_lt (h.mem_children_iff.mp hc).1)]
  rw [captures, children_addChild hp hs]
  by_cases hip : i = p
  · subst hip
    rw [if_pos rfl, List.filter_append, hold, List.filter_singleton, kind_addChild, if_pos rfl]
    cases (SegmentKind.of s).isCapture <;> simp
  · simp [hip, hold]

variable [Inhabited α]

/-- The captures of a node crowd each other exactly from the second one on. -/
theorem tells_siblings : Tells (α := α) "sibling path captures" crowding := by
  intro t p s h hp hs
  have hleaf : t.captures t.size = [] := by
    simp [captures, children, childEntries, get?_size_eq_none, Entries.values]
  have hnew : ((t.addChild p s default).captures t.size).length - 1 = 0 := by
    rw [h.captures_addChild hp hs, hleaf, if_neg fun hboth => Nat.ne_of_gt hp hboth.1]
    rfl
  have hstep : ∀ i, ((t.addChild p s default).captures i).length - 1 =
      ((t.captures i).length - 1) +
        if i = p then warnings "sibling path captures" (t.creationEvents p s) else 0 := by
    intro i
    rw [h.captures_addChild hp hs, warnings_creationEvents]
    by_cases hip : i = p
    · subst hip
      cases (SegmentKind.of s).isCapture
      · simp
      · cases t.captures i <;> simp
    · simp [hip]
  rw [crowding, size_addChild, Finset.sum_range_succ, hnew, Nat.add_zero,
    Finset.sum_congr rfl fun i _ => hstep i, Finset.sum_add_distrib, Finset.sum_ite_eq',
    if_pos (Finset.mem_range.mpr hp)]
  rfl

theorem tells_belowGreedy :
    Tells (α := α) "path continues below a greedy segment" fun t => t.belowGreedy.length := by
  intro t p s h hp hs
  have hkind : ∀ i < t.size, (t.addChild p s default).kind i = t.kind i := by
    intro i hi
    rw [kind_addChild, if_neg (Nat.ne_of_lt hi)]
  have hold : (List.range t.size).filter (t.addChild p s default).isBelowGreedy =
      t.belowGreedy := by
    refine List.filter_congr fun i hi => ?_
    rw [List.mem_range] at hi
    unfold isBelowGreedy
    rw [parent?_addChild, if_neg (Nat.ne_of_lt hi)]
    cases hpar : t.parent? i with
    | none => rfl
    | some q =>
      have hq := (h.child_of_mem_children (h.mem_children_iff.mpr ⟨hi, hpar⟩)).1
      rw [Option.any_some, Option.any_some, hkind q (Nat.lt_trans hq hi)]
  have hnew : (t.addChild p s default).isBelowGreedy t.size = (t.kind p).isGreedy := by
    rw [isBelowGreedy, parent?_addChild, if_pos rfl, Option.any_some, hkind p hp]
  show (t.addChild p s default).belowGreedy.length = _
  rw [belowGreedy, size_addChild, List.range_succ, List.filter_append, hold, List.length_append,
    warnings_creationEvents, List.filter_singleton, hnew]
  cases (t.kind p).isGreedy <;> simp

theorem tells_nameless : Tells (α := α) "path parameter has an empty name" fun _ => 0 :=
  fun t p s _ _ _ => by simp [warnings_creationEvents]

end Shapes

/-! ## Paths and what is told about them -/

section Nameless

theorem warnings_namelessEvents (path : String) :
    warnings "path parameter has an empty name" (namelessEvents path) =
      (Path.segments path).countP isNameless := by
  rw [warnings, namelessEvents, List.countP_filterMap]
  refine List.countP_congr fun s _ => ?_
  rw [← SegmentKind.captureName?_eq_empty_iff]
  by_cases hs : (SegmentKind.of s).captureName? = some "" <;>
    simp [hs, Event.warns, Event.level, Event.message]

theorem warnings_namelessTold (cs : List Insertion) :
    warnings "path parameter has an empty name" (namelessTold cs) =
      (cs.flatMap fun c => Path.segments c.path).countP isNameless := by
  induction cs with
  | nil => rfl
  | cons c cs ih =>
    unfold namelessTold at ih ⊢
    rw [List.flatMap_cons, List.flatMap_cons, warnings_append, List.countP_append,
      warnings_namelessEvents, ih]

/-- About the captures of a path without a name, nothing else is told. -/
theorem warnings_namelessTold_of_ne {message : String}
    (h : message ≠ "path parameter has an empty name") (cs : List Insertion) :
    warnings message (namelessTold cs) = 0 := by
  rw [warnings, List.countP_eq_zero]
  intro e he
  obtain ⟨c, -, he⟩ := List.mem_flatMap.mp he
  obtain ⟨s, -, hs⟩ := List.mem_filterMap.mp he
  rw [Option.ite_none_right_eq_some] at hs
  obtain rfl := Option.some.inj hs.2
  simpa [Event.warns, Event.level, Event.message] using h.symm

end Nameless

/-! ## Shapes as addresses -/

/-- The kind of the node at an address. -/
def kindAt (q : List String) : SegmentKind := (q.getLast?.map SegmentKind.of).getD .static

section Addresses

variable [Inhabited α] {t u : PathTree α}

theorem Grown.kind_eq (h : t.Grown) {id : NodeId} (hid : id < t.size) :
    t.kind id = kindAt (t.segmentsOf id) := by
  by_cases hroot : id = root
  · subst hroot
    obtain ⟨n, hn, -, hkind⟩ := h.coherent.root_first
    rw [segmentsOf_root, kind, hn]
    exact hkind
  · obtain ⟨n, hn⟩ := exists_get?_of_lt hid
    obtain ⟨p, hlt, hpar⟩ := h.wellFormed.exists_parent? hid hroot
    rw [segmentsOf_of_parent? hpar hlt, kindAt, List.getLast?_concat, segment_of_get? hn, kind, hn]
    exact h.classified id n hn hroot

omit [Inhabited α] in
theorem WellFormed.segmentsOf_parent (h : t.WellFormed) {id p : NodeId} (hid : id < t.size)
    (hpar : t.parent? id = some p) :
    p < t.size ∧ t.segmentsOf id ≠ [] ∧ t.segmentsOf p = (t.segmentsOf id).dropLast := by
  obtain ⟨hlt, -, hseg⟩ := h.child_of_mem_children (h.mem_children_iff.mpr ⟨hid, hpar⟩)
  rw [hseg, List.dropLast_concat]
  exact ⟨Nat.lt_trans hlt hid, List.append_ne_nil_of_right_ne_nil _ (List.cons_ne_nil _ _), rfl⟩

theorem Grown.mem_captures_iff (h : t.Grown) {id i : NodeId} (hid : id < t.size) :
    i ∈ t.captures id ↔ i < t.size ∧ (t.segmentsOf i).dropLast = t.segmentsOf id ∧
      (kindAt (t.segmentsOf i)).isCapture := by
  rw [captures, List.mem_filter, h.wellFormed.mem_children_iff, and_assoc]
  refine and_congr_right fun hi => ?_
  rw [h.kind_eq hi]
  refine and_congr_left fun hcapture => ?_
  constructor
  · intro hpar
    exact (h.wellFormed.segmentsOf_parent hi hpar).2.2.symm
  · intro hdrop
    have hroot : i ≠ root := by
      rintro rfl
      rw [segmentsOf_root] at hcapture
      cases hcapture
    obtain ⟨p, -, hpar⟩ := h.wellFormed.exists_parent? hi hroot
    obtain ⟨hp, -, hseg⟩ := h.wellFormed.segmentsOf_parent hi hpar
    obtain rfl : p = id := h.wellFormed.segmentsOf_inj hp hid (hseg.trans hdrop)
    exact hpar

/-- How many captures stand at addresses one segment below an address. -/
def capturesBelow (qs : List (List String)) (q : List String) : Nat :=
  qs.countP fun r => r.dropLast == q && (kindAt r).isCapture

theorem Grown.length_captures (h : t.Grown) {id : NodeId} (hid : id < t.size) :
    (t.captures id).length = capturesBelow t.addresses (t.segmentsOf id) := by
  have hperm : (t.captures id).Perm ((List.range t.size).filter fun i =>
      (t.segmentsOf i).dropLast == t.segmentsOf id && (kindAt (t.segmentsOf i)).isCapture) := by
    have hnodup : (t.captures id).Nodup := (h.wellFormed.children_nodup id).filter _
    rw [List.perm_ext_iff_of_nodup hnodup (List.nodup_range.filter _)]
    intro i
    rw [h.mem_captures_iff hid, List.mem_filter, List.mem_range, Bool.and_eq_true, beq_iff_eq]
  rw [hperm.length_eq, capturesBelow, addresses, List.countP_map, List.countP_eq_length_filter]
  rfl

theorem Grown.crowding_eq (h : t.Grown) :
    t.crowding = (t.addresses.map fun q => capturesBelow t.addresses q - 1).sum := by
  have hsum : t.crowding =
      ∑ id ∈ Finset.range t.size, (capturesBelow t.addresses (t.segmentsOf id) - 1) :=
    Finset.sum_congr rfl fun id hid => by rw [h.length_captures (Finset.mem_range.mp hid)]
  rw [hsum, addresses, List.map_map]
  rfl

theorem Grown.isBelowGreedy_eq (h : t.Grown) {id : NodeId} (hid : id < t.size) :
    t.isBelowGreedy id = (kindAt (t.segmentsOf id).dropLast).isGreedy := by
  unfold isBelowGreedy
  cases hpar : t.parent? id with
  | none =>
    obtain rfl : id = root := by
      by_contra hroot
      obtain ⟨p, -, hp⟩ := h.wellFormed.exists_parent? hid hroot
      rw [hpar] at hp
      cases hp
    rw [segmentsOf_root]
    rfl
  | some p =>
    obtain ⟨hp, -, hseg⟩ := h.wellFormed.segmentsOf_parent hid hpar
    rw [Option.any_some, h.kind_eq hp, hseg]

theorem Grown.length_belowGreedy (h : t.Grown) :
    t.belowGreedy.length = t.addresses.countP fun q => (kindAt q.dropLast).isGreedy := by
  rw [belowGreedy, ← List.countP_eq_length_filter, addresses, List.countP_map]
  refine List.countP_congr fun id hid => ?_
  rw [h.isBelowGreedy_eq (List.mem_range.mp hid)]
  rfl

/-- Trees with the same addresses are ambiguous alike. -/
theorem Grown.shapes_eq_of_perm (ht : t.Grown) (hu : u.Grown)
    (h : t.addresses.Perm u.addresses) :
    t.crowding = u.crowding ∧ t.belowGreedy.length = u.belowGreedy.length := by
  have hbelow : capturesBelow t.addresses = capturesBelow u.addresses :=
    funext fun q => h.countP_eq _
  constructor
  · rw [ht.crowding_eq, hu.crowding_eq, hbelow]
    exact (h.map _).sum_eq
  · rw [ht.length_belowGreedy, hu.length_belowGreedy]
    exact h.countP_eq _

end Addresses

/-! ## The law -/

section Law

variable [Inhabited α] {t : PathTree α} {cs ds : List Insertion}

theorem Grown.insertAll (h : t.Grown) (hcs : t.Admits cs) : (t.insertAll cs).Grown := by
  induction cs generalizing t with
  | nil => exact h
  | cons c cs ih => exact ih (h.insertAt c.path hcs.1) hcs.2

/-- The warnings agree with the shape of the tree and with the paths that were inserted. -/
structure Reports (t : PathTree α) (cs : List Insertion) (es : List Event) : Prop where
  siblings_eq : warnings "sibling path captures" es =
    ∑ id ∈ Finset.range t.size, ((t.captures id).length - 1)
  belowGreedy_eq : warnings "path continues below a greedy segment" es =
    ((List.range t.size).filter t.isBelowGreedy).length
  nameless_eq : warnings "path parameter has an empty name" es =
    (cs.flatMap fun c => Path.segments c.path).countP isNameless
  /-- Two captures under one node are never built silently. -/
  siblings_told : ∀ id < t.size, 2 ≤ (t.captures id).length →
    ∃ e ∈ es, e.level = .warn ∧ e.message = "sibling path captures"
  /-- A node below a greedy capture is never built silently. -/
  belowGreedy_told : ∀ id < t.size, t.isBelowGreedy id = true →
    ∃ e ∈ es, e.level = .warn ∧ e.message = "path continues below a greedy segment"

theorem warnings_siblings_told (hcs : (new (default : α)).Admits cs) :
    warnings "sibling path captures" ((new (default : α)).told cs) =
      ((new (default : α)).insertAll cs).crowding := by
  have htold := tells_siblings.told (wellFormed_new (default : α)) hcs
  have hnew : (new (default : α)).crowding = 0 := rfl
  rw [warnings_namelessTold_of_ne (by decide), hnew] at htold
  omega

theorem warnings_belowGreedy_told (hcs : (new (default : α)).Admits cs) :
    warnings "path continues below a greedy segment" ((new (default : α)).told cs) =
      ((new (default : α)).insertAll cs).belowGreedy.length := by
  have htold := tells_belowGreedy.told (wellFormed_new (default : α)) hcs
  have hnew : (new (default : α)).belowGreedy.length = 0 := rfl
  rw [warnings_namelessTold_of_ne (by decide), hnew] at htold
  omega

theorem reports_told (hcs : (new (default : α)).Admits cs) :
    ((new (default : α)).insertAll cs).Reports cs ((new (default : α)).told cs) := by
  have hsiblings := warnings_siblings_told hcs
  have hgreedy := warnings_belowGreedy_told hcs
  refine ⟨hsiblings, hgreedy, ?_, ?_, ?_⟩
  · have htold := tells_nameless.told (wellFormed_new (default : α)) hcs
    rw [warnings_namelessTold] at htold
    exact htold
  · intro id hid htwo
    refine exists_mem_of_warnings_pos (hsiblings ▸ ?_)
    have hone : 0 < (((new (default : α)).insertAll cs).captures id).length - 1 :=
      Nat.sub_pos_of_lt htwo
    exact Nat.lt_of_lt_of_le hone (Finset.single_le_sum
      (f := fun i => (((new (default : α)).insertAll cs).captures i).length - 1)
      (fun _ _ => Nat.zero_le _) (Finset.mem_range.mpr hid))
  · intro id hid hbelow
    refine exists_mem_of_warnings_pos (hgreedy ▸ ?_)
    exact List.length_pos_of_mem (List.mem_filter.mpr ⟨List.mem_range.mpr hid, hbelow⟩)

/-- Insertions that go to the same places, in any order and any number of times, leave trees with
the same addresses. -/
theorem addresses_perm_of_goals (hcs : (new (default : α)).Admits cs)
    (hds : (new (default : α)).Admits ds)
    (h : ∀ q, q ∈ (new (default : α)).goals ds ↔ q ∈ (new (default : α)).goals cs) :
    ((new (default : α)).insertAll ds).addresses.Perm
      ((new (default : α)).insertAll cs).addresses := by
  rw [List.perm_ext_iff_of_nodup ((wellFormed_new _).insertAll hds).addresses_nodup
    ((wellFormed_new _).insertAll hcs).addresses_nodup]
  intro q
  simp only [addresses_insertAll_new _ hcs, addresses_insertAll_new _ hds,
    mem_prefixesInOrder_iff, h]

end Law

/-- Every ambiguous shape of a tree is reported as often as it is there, however the paths were
inserted that lead to it. -/
theorem every_ambiguous_shape_is_reported_in_any_order (α : Type) [Inhabited α]
    {cs : List Insertion} (hcs : (new (default : α)).Admits cs) :
    ((new (default : α)).insertAll cs).Reports cs ((new (default : α)).told cs) ∧
      ∀ ds, (new (default : α)).Admits ds →
        (∀ q, q ∈ (new (default : α)).goals ds ↔ q ∈ (new (default : α)).goals cs) →
          warnings "sibling path captures" ((new (default : α)).told ds) =
              warnings "sibling path captures" ((new (default : α)).told cs) ∧
            warnings "path continues below a greedy segment" ((new (default : α)).told ds) =
              warnings "path continues below a greedy segment" ((new (default : α)).told cs) := by
  refine ⟨reports_told hcs, ?_⟩
  intro ds hds hgoals
  have hshapes := Grown.shapes_eq_of_perm (Grown.new.insertAll hds) (Grown.new.insertAll hcs)
    (addresses_perm_of_goals hcs hds hgoals)
  rw [warnings_siblings_told hds, warnings_siblings_told hcs, warnings_belowGreedy_told hds,
    warnings_belowGreedy_told hcs]
  exact hshapes

/-- Three captures below one node, one of them the rest of a path that goes on, and captures
without a name. -/
def ambiguousInsertions : List Insertion :=
  [{ path := "users/{id}" },
    { path := "/users/{name}" },
    { start := 1, path := "{rest+}/{}" },
    { start := 1, path := "/{rest+}//{}" }]

/-- Insertions to the same places, the longest first. -/
def ambiguousInsertionsReordered : List Insertion :=
  [{ path := "users/{rest+}/{}" },
    { start := 1, path := "{name}" },
    { start := 1, path := "{id}/" }]

theorem the_ambiguous_insertions_are_reported_in_both_orders :
    ((new ()).insertAll ambiguousInsertions).Reports ambiguousInsertions
        ((new ()).told ambiguousInsertions) ∧
      warnings "sibling path captures" ((new ()).told ambiguousInsertions) = 2 ∧
      warnings "sibling path captures" ((new ()).told ambiguousInsertionsReordered) = 2 := by
  have hadmits : (new ()).Admits ambiguousInsertions := by decide
  have hreordered : (new ()).Admits ambiguousInsertionsReordered := by decide
  have hgoals : (new ()).goals ambiguousInsertionsReordered ⊆ (new ()).goals ambiguousInsertions ∧
      (new ()).goals ambiguousInsertions ⊆ (new ()).goals ambiguousInsertionsReordered := by
    decide +kernel
  have htwo : warnings "sibling path captures" ((new ()).told ambiguousInsertions) = 2 := by decide
  obtain ⟨hreports, horder⟩ := every_ambiguous_shape_is_reported_in_any_order Unit hadmits
  have hsame := horder _ hreordered fun q => ⟨fun hq => hgoals.1 hq, fun hq => hgoals.2 hq⟩
  exact ⟨hreports, htwo, hsame.1.trans htwo⟩

end PathTree

end RestContract
