-- The contract: an API with every method attached to the tree of its resources, and
-- the artifacts that the methods name.
import RestContract.Contract.Artifact
import RestContract.Contract.AttachedMethod
import RestContract.Path.Nesting

namespace RestContract

/-- What is attached to one resource. -/
structure Attachments where
  /-- The methods in the order in which they were attached. -/
  methods : Entries Method AttachedMethod := []
  /-- The options of the preflight, once there is one. -/
  cors : Option CorsOptions := none
  deriving DecidableEq, Repr, Inhabited

namespace Attachments

/-- The method is attached. -/
def has (a : Attachments) (m : Method) : Bool := Entries.has a.methods m

def attach (a : Attachments) (m : AttachedMethod) : Attachments :=
  { a with methods := Entries.put a.methods m.method m }

def entries (a : Attachments) : List (String × Json) :=
  Json.unlessEmpty "methods" (.obj (a.methods.map fun e => (e.1.name, e.2.toJson))) ++
    Json.given "cors" CorsOptions.toJson a.cors

def toJson (a : Attachments) : Json := .obj a.entries

end Attachments

/-- The tree of the resources of an API. -/
abbrev ResourceTree := PathTree Attachments

namespace ResourceTree

def attachments (t : ResourceTree) (id : NodeId) : Attachments := (t.payload? id).getD {}

/-- The number of methods attached to any resource. -/
def methodCount (t : ResourceTree) : Nat :=
  (t.nodes.toList.flatMap fun n => n.payload.methods).length

/-- One line for a node: its segment after a slash, indented by its depth, and the methods
attached to it. -/
def outlineLine (t : ResourceTree) (id : NodeId) : String :=
  let methods := (Entries.keys (t.attachments id).methods).map Method.name
  String.ofList (List.replicate (2 * t.depth id) ' ') ++ "/" ++ t.segment id ++
    (if methods.isEmpty then "" else "  [" ++ String.intercalate " " methods ++ "]") ++ "\n"

/-- A line for each node in pre-order. -/
def outline (t : ResourceTree) : String := String.join (t.walk.map (outlineLine t))

end ResourceTree

/-- An assembled API. -/
structure Contract where
  name : String
  stageName : String
  resources : ResourceTree
  /-- The models by name, in the order of their creation. -/
  models : Entries String Model
  /-- The request validators by name, in the order of their creation. -/
  validators : Entries String RequestValidator

namespace Contract

/-- What is attached to the resource of a path. -/
def resource? (c : Contract) (path : String) : Option Attachments :=
  (c.resources.resolve path).bind c.resources.payload?

/-- A method of the resource of a path. -/
def method? (c : Contract) (path : String) (m : Method) : Option AttachedMethod :=
  (c.resource? path).bind fun a => Entries.get? a.methods m

/-- The number of attached methods, preflights included. -/
def methodCount (c : Contract) : Nat := ResourceTree.methodCount c.resources

def toJson (c : Contract) : Json :=
  .obj [("name", .str c.name), ("stageName", .str c.stageName),
    ("resources", c.resources.nested Attachments.entries),
    ("models", .obj (c.models.map fun e => (e.1, e.2.toJson))),
    ("validators", .obj (c.validators.map fun e => (e.1, e.2.toJson)))]

end Contract

end RestContract
