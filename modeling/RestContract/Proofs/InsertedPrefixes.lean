-- The tree that insertions leave is the set of the prefixes of what was inserted. Each prefix
-- has one node, and the nodes are numbered in the order in which the prefixes first came.
import Mathlib.Data.Set.Card
import RestContract.Proofs.PathInsertion
import RestContract.Proofs.PathText

namespace RestContract

namespace PathTree

variable {α : Type} {t : PathTree α}

/-! ## Looking paths up -/

section Looking

variable {q : String} {i : NodeId}

theorem WellFormed.resolve_eq_some_iff (h : t.WellFormed) :
    t.resolve q = some i ↔ i < t.size ∧ t.segmentsOf i = Path.segments q :=
  h.follow_root_eq_some_iff

theorem WellFormed.resolve_isSome_iff (h : t.WellFormed) :
    (t.resolve q).isSome = true ↔ Path.segments q ∈ t.addresses := by
  rw [Option.isSome_iff_exists, h.mem_addresses_iff_follow]
  rfl

theorem getElem?_addresses {r : List String} :
    t.addresses[i]? = some r ↔ i < t.size ∧ t.segmentsOf i = r := by
  unfold addresses
  by_cases hi : i < t.size <;> simp [hi]

/-- Every node stands below segments that were read from paths. -/
def Spelled (t : PathTree α) : Prop := ∀ q ∈ t.addresses, ∀ s ∈ q, Path.segments s = [s]

theorem spelled_new (x : α) : (new x).Spelled := by
  intro q hq
  rw [addresses_new, List.mem_singleton] at hq
  simp [hq]

theorem Spelled.segments_of_mem (h : t.Spelled) (hi : i < t.size) :
    ∀ s ∈ t.segmentsOf i, Path.segments s = [s] :=
  h _ (mem_addresses.mpr ⟨i, hi, rfl⟩)

/-- The path of a node is read as the segments of the node. -/
theorem Spelled.segments_pathOf (h : t.Spelled) (hi : i < t.size) :
    Path.segments (t.pathOf i) = t.segmentsOf i :=
  Path.segments_join_of_segments (h.segments_of_mem hi)

end Looking

/-! ## Prefixes -/

section Prefixes

variable {ls : List (List String)}

/-- The prefixes of some lists of segments in the order of their first appearance. The empty
one is there from the start. -/
def prefixesInOrder (ls : List (List String)) : List (List String) :=
  ([] :: ls.flatMap List.inits).eraseDups

theorem mem_prefixesInOrder_iff {q : List String} :
    q ∈ prefixesInOrder ls ↔ q = [] ∨ ∃ l ∈ ls, q <+: l := by
  simp [prefixesInOrder, List.mem_eraseDups]

/-- Every node but the root is one non-empty prefix. -/
theorem WellFormed.size_eq_ncard (h : t.WellFormed) (hls : t.addresses = prefixesInOrder ls) :
    t.size = Set.ncard {q : List String | q ≠ [] ∧ ∃ l ∈ ls, q <+: l} + 1 := by
  have hset : {q : List String | q ≠ [] ∧ ∃ l ∈ ls, q <+: l} =
      (t.addresses.toFinset.erase [] : Finset (List String)) := by
    ext q
    by_cases hq : q = [] <;> simp [hq, hls, mem_prefixesInOrder_iff]
  have hroot : [] ∈ t.addresses.toFinset := by
    simp [hls, mem_prefixesInOrder_iff]
  have hcard : t.addresses.toFinset.card = t.size := by
    rw [List.toFinset_card_of_nodup h.addresses_nodup]
    simp [addresses]
  have hpos : 0 < t.size := h.size_pos
  rw [hset, Set.ncard_coe_finset, Finset.card_erase_of_mem hroot, hcard]
  omega

end Prefixes

end PathTree

/-! ## Insertions -/

/-- A path to insert below a node; without a node, below the root. -/
structure Insertion where
  start : NodeId := PathTree.root
  path : String

namespace PathTree

variable {α : Type} [Inhabited α]

/-- The segments from the root to where an insertion goes. -/
def goal (t : PathTree α) (c : Insertion) : List String :=
  t.segmentsOf c.start ++ Path.segments c.path

/-- The path from the root to where an insertion goes. -/
def fullPath (t : PathTree α) (c : Insertion) : String := t.pathOf c.start ++ "/" ++ c.path

/-- The tree after one insertion. -/
def inserted (t : PathTree α) (c : Insertion) : PathTree α := (t.insertAt c.start c.path).tree

/-- The tree after insertions, one after another. -/
def insertAll (t : PathTree α) (cs : List Insertion) : PathTree α := cs.foldl inserted t

/-- Every insertion starts at a node that is there when its turn comes. -/
def Admits (t : PathTree α) : List Insertion → Prop
  | [] => True
  | c :: cs => c.start < t.size ∧ (t.inserted c).Admits cs

/-- Where each insertion goes. -/
def goals (t : PathTree α) : List Insertion → List (List String)
  | [] => []
  | c :: cs => t.goal c :: (t.inserted c).goals cs

instance decidableAdmits : (cs : List Insertion) → (t : PathTree α) → Decidable (t.Admits cs)
  | [], _ => .isTrue trivial
  | c :: cs, t =>
    have := decidableAdmits cs (t.inserted c)
    inferInstanceAs (Decidable (c.start < t.size ∧ (t.inserted c).Admits cs))

/-- The insertion returns the node of its full path, which stays so with later insertions. -/
structure Settles (t : PathTree α) (c : Insertion) (later : List Insertion) : Prop where
  segments_fullPath : Path.segments (t.fullPath c) = t.goal c
  resolve_then : (t.inserted c).resolve (t.fullPath c) = some (t.insertAt c.start c.path).node
  resolve_later : ((t.inserted c).insertAll later).resolve (t.fullPath c) =
    some (t.insertAt c.start c.path).node

/-- The tree is the set of the prefixes of some lists of segments. -/
structure HoldsPrefixes (t : PathTree α) (ls : List (List String)) : Prop where
  resolve_isSome_iff : ∀ q, (t.resolve q).isSome = true ↔
    Path.segments q = [] ∨ ∃ l ∈ ls, Path.segments q <+: l
  resolve_inj : ∀ q r i, t.resolve q = some i → t.resolve r = some i →
    Path.segments q = Path.segments r
  size_eq : t.size = Set.ncard {q : List String | q ≠ [] ∧ ∃ l ∈ ls, q <+: l} + 1
  /-- A node is the place of its segments in the order of first appearance. -/
  resolve_eq_some_iff : ∀ q i, t.resolve q = some i ↔
    (prefixesInOrder ls)[i]? = some (Path.segments q)
  settles : ∀ c later, t.Admits (c :: later) → t.Settles c later
  /-- Inserting what is there changes nothing. -/
  insertAt_of_resolveAt : ∀ start path i, t.resolveAt start path = some i →
    t.insertAt start path = { tree := t, node := i, events := namelessEvents path }
  resolve_pathOf : ∀ i < t.size, t.resolve (t.pathOf i) = some i
  pathOf_of_resolve : ∀ q i, t.resolve q = some i →
    t.pathOf i = "/" ++ String.intercalate "/" (Path.segments q)

/-! ## The order of addresses -/

section Addresses

theorem Arrival.eraseDups_descend {a : Arrival α} (h : a.tree.WellFormed)
    (hlt : a.node < a.tree.size) (s : String) (rest : List (List String)) :
    ((a.descend s).tree.addresses ++ rest).eraseDups =
      (a.tree.addresses ++ (a.tree.segmentsOf a.node ++ [s]) :: rest).eraseDups := by
  unfold Arrival.descend
  cases hc : a.tree.child? a.node s with
  | some c =>
    obtain ⟨-, hc_lt, hseg⟩ := h.child_spec hc
    have hmem : [a.tree.segmentsOf a.node ++ [s]] ⊆ a.tree.addresses := by
      simpa using mem_addresses.mpr ⟨c, hc_lt, hseg⟩
    exact (eraseDups_append_of_subset hmem rest).symm
  | none => simp [addresses_addChild hlt hc]

/-- Going down segments adds the prefixes on the way that are new, the shorter ones first. -/
theorem Arrival.eraseDups_foldl_descend (q : List String) {a : Arrival α}
    (h : a.tree.WellFormed) (hlt : a.node < a.tree.size) (rest : List (List String)) :
    ((q.foldl Arrival.descend a).tree.addresses ++ rest).eraseDups =
      (a.tree.addresses ++
        (q.inits.tail.map (a.tree.segmentsOf a.node ++ ·) ++ rest)).eraseDups := by
  induction q generalizing a with
  | nil => simp
  | cons s q ih =>
    have hs := Arrival.reaches_descend h hlt s
    have hfirst : (s :: q).inits.tail = [s] :: q.inits.tail.map (s :: ·) := by
      cases q <;> simp
    rw [List.foldl_cons, ih hs.wellFormed hs.node_lt, Arrival.eraseDups_descend h hlt,
      hs.segmentsOf_node, hfirst]
    simp only [List.map_cons, List.map_map, Function.comp_def, List.append_assoc,
      List.cons_append, List.nil_append]

variable {t : PathTree α} {c : Insertion} {cs : List Insertion}

theorem WellFormed.eraseDups_inserted (h : t.WellFormed) (hlt : c.start < t.size)
    (rest : List (List String)) : ((t.inserted c).addresses ++ rest).eraseDups =
      (t.addresses ++ ((t.goal c).inits ++ rest)).eraseDups := by
  have hway : (t.segmentsOf c.start).inits ⊆ t.addresses := by
    intro r hr
    rw [List.mem_inits] at hr
    exact h.mem_addresses_of_prefix hr (mem_addresses.mpr ⟨_, hlt, rfl⟩)
  unfold goal
  rw [List.inits_append, List.append_assoc, eraseDups_append_of_subset hway]
  exact Arrival.eraseDups_foldl_descend _ h hlt rest

theorem WellFormed.inserted (h : t.WellFormed) (hlt : c.start < t.size) :
    (t.inserted c).WellFormed := (h.reaches_insertAt hlt c.path).wellFormed

theorem WellFormed.insertAll (h : t.WellFormed) (hcs : t.Admits cs) :
    (t.insertAll cs).WellFormed := by
  induction cs generalizing t with
  | nil => exact h
  | cons c cs ih => exact ih (h.inserted hcs.1) hcs.2

theorem extends_insertAll (t : PathTree α) (cs : List Insertion) :
    t.Extends Eq (t.insertAll cs) := by
  induction cs generalizing t with
  | nil => exact Extends.refl (fun _ => rfl) t
  | cons c cs ih => exact (t.extends_insertAt c.start c.path).trans_eq (ih (t.inserted c))

theorem WellFormed.addresses_insertAll (h : t.WellFormed) (hcs : t.Admits cs) :
    (t.insertAll cs).addresses =
      (t.addresses ++ (t.goals cs).flatMap List.inits).eraseDups := by
  induction cs generalizing t with
  | nil =>
    show t.addresses = (t.addresses ++ []).eraseDups
    rw [List.append_nil, eraseDups_of_nodup h.addresses_nodup]
  | cons c cs ih =>
    have hrest := ih (h.inserted hcs.1) hcs.2
    rw [h.eraseDups_inserted hcs.1] at hrest
    exact hrest

theorem addresses_insertAll_new (x : α) (hcs : (new x).Admits cs) :
    ((new x).insertAll cs).addresses = prefixesInOrder ((new x).goals cs) := by
  rw [(wellFormed_new x).addresses_insertAll hcs, addresses_new]
  rfl

end Addresses

/-! ## What insertions return -/

section Returns

variable {t : PathTree α} {c : Insertion} {cs : List Insertion}

theorem Spelled.inserted (hspelled : t.Spelled) (h : t.WellFormed) (hlt : c.start < t.size) :
    (t.inserted c).Spelled := by
  intro q hq s hs
  have hmem := ((h.reaches_insertAt hlt c.path).mem_addresses_iff q).mp hq
  rcases hmem with hold | hnew
  · exact hspelled q hold s hs
  · rcases List.mem_append.mp (hnew.subset hs) with hstart | hpath
    · exact hspelled.segments_of_mem hlt s hstart
    · exact Path.segments_of_mem hpath

theorem Spelled.insertAll (hspelled : t.Spelled) (h : t.WellFormed) (hcs : t.Admits cs) :
    (t.insertAll cs).Spelled := by
  induction cs generalizing t with
  | nil => exact hspelled
  | cons c cs ih => exact ih (hspelled.inserted h hcs.1) (h.inserted hcs.1) hcs.2

theorem WellFormed.settles (h : t.WellFormed) (hspelled : t.Spelled)
    (hcs : t.Admits (c :: cs)) : t.Settles c cs := by
  obtain ⟨hlt, hlater⟩ := hcs
  have hreach := h.reaches_insertAt hlt c.path
  have hwf : (t.inserted c).WellFormed := hreach.wellFormed
  have hkeeps := (t.inserted c).extends_insertAll cs
  have hsegments : Path.segments (t.fullPath c) = t.goal c := by
    rw [fullPath, Path.segments_append_slash, hspelled.segments_pathOf hlt, goal]
  have hnode : (t.inserted c).segmentsOf (t.insertAt c.start c.path).node =
      Path.segments (t.fullPath c) := hreach.segmentsOf_node.trans hsegments.symm
  refine ⟨hsegments, ?_, ?_⟩
  · exact hwf.resolve_eq_some_iff.mpr ⟨hreach.node_lt, hnode⟩
  · rw [(hwf.insertAll hlater).resolve_eq_some_iff]
    exact ⟨Nat.lt_of_lt_of_le hreach.node_lt hkeeps.size_le,
      (hkeeps.segmentsOf_eq hreach.node_lt).trans hnode⟩

/-- On a way that is there, nothing is created. -/
theorem foldl_descend_of_follow {q : List String} {a : Arrival α} {i : NodeId}
    (h : a.tree.follow a.node q = some i) : q.foldl Arrival.descend a = { a with node := i } := by
  induction q generalizing a with
  | nil =>
    cases h
    rfl
  | cons s q ih =>
    rw [follow_cons, Option.bind_eq_some_iff] at h
    obtain ⟨c, hc, hrest⟩ := h
    have hstep : a.descend s = { a with node := c } := by
      simp [Arrival.descend, hc]
    rw [List.foldl_cons, hstep, ih hrest]

end Returns

/-! ## The law -/

/-- The tree after any insertions is the set of the prefixes of where they went. -/
theorem a_tree_is_the_set_of_inserted_prefixes (x : α) (cs : List Insertion)
    (hcs : (new x).Admits cs) : ((new x).insertAll cs).HoldsPrefixes ((new x).goals cs) := by
  have h := (wellFormed_new x).insertAll hcs
  have hspelled := Spelled.insertAll (spelled_new x) (wellFormed_new x) hcs
  have haddresses := addresses_insertAll_new x hcs
  constructor
  · intro q
    rw [h.resolve_isSome_iff, haddresses, mem_prefixesInOrder_iff]
  · intro q r i hq hr
    rw [h.resolve_eq_some_iff] at hq hr
    exact hq.2.symm.trans hr.2
  · exact h.size_eq_ncard haddresses
  · intro q i
    rw [← haddresses, getElem?_addresses, h.resolve_eq_some_iff]
  · intro c later hc
    exact h.settles hspelled hc
  · intro start path i hi
    exact foldl_descend_of_follow
      (a := { tree := _, node := start, events := namelessEvents path }) hi
  · intro i hi
    rw [h.resolve_eq_some_iff, hspelled.segments_pathOf hi]
    exact ⟨hi, rfl⟩
  · intro q i hq
    rw [h.resolve_eq_some_iff] at hq
    rw [pathOf, hq.2, Path.join]

/-- Insertions that share prefixes, with blanks, empty segments and captures, some of them
below a node that is already there. -/
def userInsertions : List Insertion :=
  [{ path := "/users/\x7bid\x7d" },
    { path := " users // \x7bid\x7d /posts" },
    { start := 1, path := "search/" },
    { path := "/" },
    { start := 2, path := "posts/\x7bproxy+\x7d" },
    { start := 4, path := "" }]

theorem the_tree_of_the_user_insertions_is_the_set_of_their_prefixes :
    (new ()).Admits userInsertions ∧
      ((new ()).insertAll userInsertions).HoldsPrefixes ((new ()).goals userInsertions) := by
  have hadmits : (new ()).Admits userInsertions := by decide
  exact ⟨hadmits, a_tree_is_the_set_of_inserted_prefixes () userInsertions hadmits⟩

end PathTree

end RestContract
