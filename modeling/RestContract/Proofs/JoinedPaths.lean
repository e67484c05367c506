-- Paths in two parts. Going down one part and then the other ends at the node of both parts
-- with a slash between them and leaves the same tree, whether nodes are looked up or inserted.
-- So the child of a proxy is the node of its path with one segment more.
import RestContract.Proofs.ContractGrowth
import RestContract.Proofs.LikeRoutes
import RestContract.Proofs.References

namespace RestContract

namespace PathTree

variable {α : Type} [Inhabited α]

/-! ## Inserting in two parts -/

/-- The two arrivals are at one node of one tree. What was told on the way may differ. -/
structure Arrival.Meets (a b : Arrival α) : Prop where
  tree_eq : a.tree = b.tree
  node_eq : a.node = b.node

/-- Inserts a path below the node of an arrival. -/
def Arrival.goOn (a : Arrival α) (path : String) : Arrival α := a.tree.insertAt a.node path

section Inserting

variable {t : PathTree α}

theorem meets_insertAt_joined (t : PathTree α) (start : NodeId) (p q : String) :
    ((t.insertAt start p).goOn q).Meets (t.insertAt start (p ++ "/" ++ q)) := by
  have hfirst := Arrival.foldl_descend_congr (Path.segments p)
    (a := { tree := t, node := start, events := namelessEvents p })
    (b := { tree := t, node := start, events := namelessEvents (p ++ "/" ++ q) }) rfl rfl
  obtain ⟨htree, hnode⟩ := Arrival.foldl_descend_congr (Path.segments q)
    (a := { t.insertAt start p with events := namelessEvents q }) hfirst.1 hfirst.2
  have hjoined : t.insertAt start (p ++ "/" ++ q) =
      (Path.segments q).foldl Arrival.descend ((Path.segments p).foldl Arrival.descend
        { tree := t, node := start, events := namelessEvents (p ++ "/" ++ q) }) := by
    rw [insertAt, Path.segments_append_slash, List.foldl_append]
  rw [hjoined]
  exact ⟨htree, hnode⟩

/-- The path of a node leads to the node and creates nothing. -/
theorem Grown.insert_pathOf (h : Grown t) {id : NodeId} (hid : id < t.size) :
    t.insert (t.pathOf id) =
      { tree := t, node := id, events := namelessEvents (t.pathOf id) } := by
  refine foldl_descend_of_follow
    (a := { tree := t, node := root, events := namelessEvents (t.pathOf id) }) ?_
  rw [h.spelled.segments_pathOf hid]
  exact h.wellFormed.follow_segmentsOf hid

theorem Grown.meets_insert_pathOf (h : Grown t) {id : NodeId} (hid : id < t.size) (q : String) :
    (t.insertAt id q).Meets (t.insert (t.pathOf id ++ "/" ++ q)) := by
  have hmeets := t.meets_insertAt_joined root (t.pathOf id) q
  have hself : t.insertAt root (t.pathOf id) = _ := h.insert_pathOf hid
  rw [hself] at hmeets
  exact hmeets

/-- A path that was inserted leads to the node that its insertion arrived at. -/
theorem WellFormed.resolve_insert (h : t.WellFormed) (p : String) :
    (t.insert p).tree.resolve p = some (t.insert p).node := by
  have hreach := h.reaches_insertAt h.size_pos p
  refine hreach.wellFormed.resolve_eq_some_iff.mpr ⟨hreach.node_lt, ?_⟩
  exact hreach.segmentsOf_node.trans (congrArg (· ++ _) (segmentsOf_root t))

end Inserting

/-! ## Looking up in two parts -/

omit [Inhabited α] in
theorem resolve_joined {t : PathTree α} {p : String} {id : NodeId} (h : t.resolve p = some id)
    (q : String) : t.resolve (p ++ "/" ++ q) = t.resolveAt id q := by
  have hfirst : t.follow root (Path.segments p) = some id := h
  rw [resolve, resolveAt, Path.segments_append_slash, follow_append, hfirst]
  rfl

/-- Below a node or below the root, in two parts or in one, a path leads to the same node of the
same tree. -/
structure JoinsPaths (t : PathTree α) : Prop where
  meets_joined : ∀ start p q,
    ((t.insertAt start p).goOn q).Meets (t.insertAt start (p ++ "/" ++ q))
  meets_absolute : ∀ id < t.size, ∀ q,
    (t.insertAt id q).Meets (t.insert (t.pathOf id ++ "/" ++ q))
  resolveAt_eq : ∀ p q id, t.resolve p = some id →
    t.resolveAt id q = t.resolve (p ++ "/" ++ q)
  /-- The child that a proxy route inserts is the node of its path with one segment more. -/
  resolve_proxy_child : ∀ p,
    ((t.insert p).goOn proxySegment).tree.resolve (p ++ "/" ++ proxySegment) =
      some ((t.insert p).goOn proxySegment).node

theorem Grown.joinsPaths {t : PathTree α} (h : Grown t) : t.JoinsPaths := by
  constructor
  · exact t.meets_insertAt_joined
  · exact fun id hid => h.meets_insert_pathOf hid
  · exact fun p q id hp => (resolve_joined hp q).symm
  · intro p
    have hmeets : ((t.insert p).goOn proxySegment).Meets (t.insert (p ++ "/" ++ proxySegment)) :=
      t.meets_insertAt_joined root p proxySegment
    rw [hmeets.tree_eq, hmeets.node_eq]
    exact h.wellFormed.resolve_insert _

end PathTree

/-! ## The children of proxies -/

/-- A proxy stands on the node of its path and on the child below it, and the child is the node of
the path with one segment more. -/
def Contract.HoldsProxy (c : Contract) (p : Proxy) : Prop :=
  ∃ id child, c.resources.resolve p.path = some id ∧
    c.resources.child? id proxySegment = some child ∧
    c.resources.resolve (p.path ++ "/" ++ proxySegment) = some child ∧
    ∀ node ∈ [id, child], c.Attached node .any (Assembling.proxyMethod p.definition)

theorem Build.Holds.exists_node_of_proxy {b : Build} {d : Declaration} (h : b.Holds d d.demand)
    {p : Proxy} (hp : p ∈ d.proxies) {q : List String} (hq : q ∈ p.addresses) :
    ∃ id, b.resources.follow PathTree.root q = some id ∧
      (b.contract d).Attached id .any (Assembling.proxyMethod p.definition) := by
  have hasks : d.demand.Asks d.policy q (Assembling.proxyMethod p.definition) := .proxy hp hq
  have hhas := (h.has_iff q .any).mpr ⟨_, rfl, hasks⟩
  obtain ⟨id, hid, rfl⟩ := PathTree.mem_addresses.mp (h.mem_addresses_of_has hhas)
  exact ⟨id, h.wellFormed.follow_segmentsOf hid, h.attached_contract_iff.mpr ⟨hid, rfl, hasks⟩⟩

theorem Build.Holds.holdsProxy {b : Build} {d : Declaration} (h : b.Holds d d.demand)
    {p : Proxy} (hp : p ∈ d.proxies) : (b.contract d).HoldsProxy p := by
  obtain ⟨id, hid, hat⟩ := h.exists_node_of_proxy hp (q := p.segments) (by simp [Proxy.addresses])
  obtain ⟨child, hchild, hat'⟩ :=
    h.exists_node_of_proxy hp (q := p.childSegments) (by simp [Proxy.addresses])
  have hsegments : Path.segments (p.path ++ "/" ++ proxySegment) = p.childSegments := by
    rw [Path.segments_append_slash, Path.segments_proxySegment]
    rfl
  have hbelow : b.resources.child? id proxySegment = some child := by
    rw [Proxy.childSegments, PathTree.follow_append, hid] at hchild
    simpa [PathTree.follow_cons] using hchild
  refine ⟨id, child, hid, hbelow, ?_, ?_⟩
  · show b.resources.follow PathTree.root _ = some child
    rw [hsegments, hchild]
  · simpa using ⟨hat, hat'⟩

/-! ## The law -/

/-- Relative and absolute paths agree: in their segments, in the nodes they lead to and in the
trees they leave, and so the child of every proxy is where its longer path leads. -/
theorem relative_and_absolute_paths_agree (α : Type) [Inhabited α] :
    (∀ p q, Path.segments (p ++ "/" ++ q) = Path.segments p ++ Path.segments q) ∧
      (∀ p, Path.segments (Path.join (Path.segments p)) = Path.segments p) ∧
      (∀ t : PathTree α, t.Grown → t.JoinsPaths) ∧
      ∀ (d : Declaration) (c : Contract), d.assemble = .ok c → ∀ p ∈ d.proxies, c.HoldsProxy p := by
  refine ⟨Path.segments_append_slash, Path.segments_join_segments, ?_, ?_⟩
  · exact fun t h => h.joinsPaths
  · intro d c hc p hp
    obtain ⟨b, h, rfl⟩ := Declaration.holds_of_assemble hc
    exact h.holdsProxy hp

theorem relative_and_absolute_paths_agree_below_the_users :
    PathTree.countedTree.JoinsPaths ∧
      ∃ c p, Samples.reportApi.assemble = .ok c ∧ p ∈ Samples.reportApi.proxies ∧
        p.path = "//reports" ∧ c.HoldsProxy p := by
  obtain ⟨-, -, hjoins, hproxies⟩ := relative_and_absolute_paths_agree Nat
  have hok : ∃ c, Samples.reportApi.assemble = .ok c := ⟨_, rfl⟩
  obtain ⟨c, hc⟩ := hok
  have hp : (⟨"//reports", .integration Samples.httpBackend⟩ : Proxy) ∈
      Samples.reportApi.proxies := List.mem_singleton_self _
  exact ⟨hjoins _ PathTree.grown_countedTree, c, _, hc, hp, rfl, hproxies _ c hc _ hp⟩

end RestContract
