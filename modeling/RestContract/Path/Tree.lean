-- The tree of path segments. Nodes are kept in the order in which they were created,
-- so a node is a number, its parent comes before it, and the root is number zero.
-- Inserting a path reuses the nodes that are there and creates the others.
import RestContract.Entries
import RestContract.Journal.Event
import RestContract.Path.Segment

namespace RestContract

/-- A node by its place in the order of creation. -/
abbrev NodeId := Nat

/-- A node of a path tree, with its children in the order of their creation and a
payload. -/
structure PathNode (α : Type) where
  segment : String
  kind : SegmentKind
  parent : Option NodeId
  children : Entries String NodeId
  payload : α
  deriving Inhabited

/-- A tree of path segments. -/
structure PathTree (α : Type) where
  nodes : Array (PathNode α)

namespace PathTree

variable {α : Type}

def root : NodeId := 0

/-- A tree of the root alone. -/
def new (payload : α) : PathTree α :=
  { nodes := #[{ segment := "", kind := .static, parent := none, children := [], payload }] }

/-! ## Looking -/

def get? (t : PathTree α) (id : NodeId) : Option (PathNode α) := t.nodes[id]?

def size (t : PathTree α) : Nat := t.nodes.size

def contains (t : PathTree α) (id : NodeId) : Bool := id < t.size

def segment (t : PathTree α) (id : NodeId) : String := ((t.get? id).map (·.segment)).getD ""

def kind (t : PathTree α) (id : NodeId) : SegmentKind := ((t.get? id).map (·.kind)).getD .static

def parent? (t : PathTree α) (id : NodeId) : Option NodeId := (t.get? id).bind (·.parent)

/-- The children of a node with their segments, oldest first. -/
def childEntries (t : PathTree α) (id : NodeId) : Entries String NodeId :=
  ((t.get? id).map (·.children)).getD []

/-- The children of a node, oldest first. -/
def children (t : PathTree α) (id : NodeId) : List NodeId := Entries.values (t.childEntries id)

/-- The child of a node with a segment. -/
def child? (t : PathTree α) (id : NodeId) (segment : String) : Option NodeId :=
  Entries.get? (t.childEntries id) segment

def payload? (t : PathTree α) (id : NodeId) : Option α := (t.get? id).map (·.payload)

/-- The strict ancestors of a node, nearest first. A parent comes before its children,
which is what ends the climb. -/
def ancestors (t : PathTree α) (id : NodeId) : List NodeId :=
  match t.parent? id with
  | none => []
  | some p => if _h : p < id then p :: t.ancestors p else []
termination_by id

/-- The number of strict ancestors of a node. -/
def depth (t : PathTree α) (id : NodeId) : Nat := (t.ancestors id).length

/-- The segments from the root to a node. -/
def segmentsOf (t : PathTree α) (id : NodeId) : List String :=
  (((id :: t.ancestors id).filter (· != root)).map t.segment).reverse

/-- The path of a node; the root has the path of one slash. -/
def pathOf (t : PathTree α) (id : NodeId) : String := Path.join (t.segmentsOf id)

/-- The node that a list of segments leads to. -/
def follow (t : PathTree α) (start : NodeId) (segments : List String) : Option NodeId :=
  segments.foldlM t.child? start

/-- The node that a path leads to from a node. -/
def resolveAt (t : PathTree α) (start : NodeId) (path : String) : Option NodeId :=
  t.follow start (Path.segments path)

/-- The node that a path leads to from the root. -/
def resolve (t : PathTree α) (path : String) : Option NodeId := t.resolveAt root path

/-! ## Growing -/

def modifyPayload (t : PathTree α) (id : NodeId) (f : α → α) : PathTree α :=
  { nodes := t.nodes.modify id fun n => { n with payload := f n.payload } }

/-- Adds a child to a node, with the next free number. -/
def addChild (t : PathTree α) (parent : NodeId) (segment : String) (payload : α) : PathTree α :=
  let linked := t.nodes.modify parent fun n =>
    { n with children := Entries.put n.children segment t.size }
  { nodes := linked.push
      { segment, kind := .of segment, parent := some parent, children := [], payload } }

/-- The segment of the oldest child of a node that captures. -/
def captureBelow? (t : PathTree α) (id : NodeId) : Option String :=
  (Entries.keys ((t.childEntries id).filter fun e => (t.kind e.2).isCapture)).head?

/-- What is told about a node that is about to be created: first the shapes that no
router could serve without doubt, then the creation. -/
def creationEvents (t : PathTree α) (parent : NodeId) (segment : String) : List Event :=
  let greedy := if (t.kind parent).isGreedy then [.belowGreedy segment (t.pathOf parent)] else []
  let siblings :=
    if (SegmentKind.of segment).isCapture then
      match t.captureBelow? parent with
      | some existing => [.siblingCaptures segment existing (t.pathOf parent)]
      | none => []
    else []
  greedy ++ siblings ++ [.nodeCreated parent t.size segment]

/-- What is told about a path that is about to be inserted: its captures without a
name. -/
def namelessEvents (path : String) : List Event :=
  (Path.segments path).filterMap fun s =>
    if (SegmentKind.of s).captureName? == some "" then some (.emptyCapture s path) else none

/-- A tree, the node reached in it, and what was told on the way. -/
structure Arrival (α : Type) where
  tree : PathTree α
  node : NodeId
  events : List Event

/-- Goes down one segment, creating the node if it is not there. -/
def Arrival.descend [Inhabited α] (a : Arrival α) (segment : String) : Arrival α :=
  match a.tree.child? a.node segment with
  | some child => { a with node := child }
  | none =>
    { tree := a.tree.addChild a.node segment default
      node := a.tree.size
      events := a.events ++ a.tree.creationEvents a.node segment }

/-- Inserts a path below a node. An empty path arrives at the node itself. -/
def insertAt [Inhabited α] (t : PathTree α) (start : NodeId) (path : String) : Arrival α :=
  (Path.segments path).foldl Arrival.descend
    { tree := t, node := start, events := namelessEvents path }

def insert [Inhabited α] (t : PathTree α) (path : String) : Arrival α := t.insertAt root path

/-- The tree of a list of paths, inserted in order. -/
def build [Inhabited α] (paths : List String) : PathTree α × List Event :=
  paths.foldl (fun (t, events) path =>
    let a := t.insert path
    (a.tree, events ++ a.events)) (new default, [])

/-! ## Walking -/

/-- Takes nodes from a stack, putting the children of each on top. The first argument
bounds the number of nodes taken. -/
def walkFrom (t : PathTree α) : Nat → List NodeId → List NodeId
  | 0, _ => []
  | _, [] => []
  | fuel + 1, id :: stack => id :: t.walkFrom fuel (t.children id ++ stack)

/-- Every node in pre-order, the children of a node oldest first. -/
def walk (t : PathTree α) : List NodeId := t.walkFrom t.size [root]

end PathTree

end RestContract
