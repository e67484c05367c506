-- The tree of paths as nested JSON objects. Each object is one resource with its own
-- fields inlined, and holds the objects of its children.
import RestContract.Json.Value
import RestContract.Path.Tree

namespace RestContract.PathTree

variable {α : Type}

/-- The fields of a resource besides its children. -/
def resourceFields (t : PathTree α) (entries : α → List (String × Json)) (id : NodeId) :
    List (String × Json) :=
  [("pathPart", .str (t.segment id)), ("path", .str (t.pathOf id))] ++
    ((t.payload? id).map entries).getD []

/-- The object of a resource and of those below it, given how a payload is written. The
first number bounds how deep the objects nest. -/
def nestWithin (t : PathTree α) (entries : α → List (String × Json)) : Nat → NodeId → Json
  | 0, id => .obj (t.resourceFields entries id)
  | depth + 1, id =>
    .obj (t.resourceFields entries id ++
      Json.unlessEmpty "children" (.arr ((t.children id).map (t.nestWithin entries depth))))

/-- The object of the root. No chain of children is longer than the tree has nodes. -/
def nested (t : PathTree α) (entries : α → List (String × Json)) : Json :=
  t.nestWithin entries t.size root

end RestContract.PathTree
