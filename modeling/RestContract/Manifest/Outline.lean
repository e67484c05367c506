-- The outline of a manifest: its name, the global section and the routes, with plain
-- values in the places of definitions. Formats differ in what they read as a name, a map
-- or a value, so an outline is read through a view of the nodes of a format.
import RestContract.Json.Shape

namespace RestContract

structure Outline where
  name : Option String := none
  /-- What the global section says about authorization. -/
  auth : Option Json := none
  /-- What the global section says about CORS. -/
  cors : Option Json := none
  /-- The routes by path, each with its values by key. -/
  paths : Entries String (Entries String Json) := []
  /-- Keys beside the three that mean something, each once. -/
  unknown : List String := []
  /-- Keys of the global section that mean nothing, each once. -/
  unknownGlobal : List String := []

/-- How the nodes of a format are read. -/
structure NodeView (ν : Type) where
  /-- An optional text. -/
  text? : ν → Option (Option String)
  /-- The entries of a map, in their order; keys may repeat. -/
  entries? : ν → Option (List (String × ν))
  /-- Any value. -/
  value? : ν → Option Json
  /-- A value that means nothing can be read. -/
  idle? : ν → Bool

namespace NodeView

variable {ν : Type} (view : NodeView ν)

/-- The entries of a map of which all values can be read. -/
def map? {α : Type} (item : ν → Option α) (node : ν) : Option (Entries String α) := do
  let entries ← view.entries? node
  let read ← entries.mapM fun (e : String × ν) => (item e.2).map (e.1, ·)
  return Entries.ofPairs read

/-- The value of a field that may be absent or `null`. -/
def maybe? (fields : List (String × ν)) (name : String) : Option (Option Json) :=
  match Entries.get? fields name with
  | none => some none
  | some node =>
    (view.value? node).map fun
      | .null => none
      | v => some v.normal

/-- A known field does not repeat. -/
def isOnce (fields : List (String × ν)) (name : String) : Bool :=
  (fields.filter (·.1 == name)).length ≤ 1

/-- The other keys, each once, if their values can be read. -/
def others? (known : List String) (fields : List (String × ν)) : Option (List String) :=
  let others := fields.filter fun e => !known.contains e.1
  if others.all (view.idle? ·.2) then some (Entries.keys others).eraseDups else none

/-- The outline with what the global section says. -/
def readGlobal? (outline : Outline) (node : ν) : Option Outline := do
  let fields ← view.entries? node
  guard (isOnce fields "auth" && isOnce fields "cors")
  return { outline with
    auth := ← view.maybe? fields "auth"
    cors := ← view.maybe? fields "cors"
    unknownGlobal := ← view.others? ["auth", "cors"] fields }

def outline? (node : ν) : Option Outline := do
  let fields ← view.entries? node
  guard (["name", "global", "paths"].all (isOnce fields))
  let name ← ((Entries.get? fields "name").map view.text?).getD (some none)
  let paths ←
    ((Entries.get? fields "paths").map
      (view.map? (view.map? fun v => (view.value? v).map Json.normal))).getD (some [])
  let unknown ← view.others? ["name", "global", "paths"] fields
  let outline : Outline := { name, paths, unknown }
  ((Entries.get? fields "global").map (view.readGlobal? outline)).getD (some outline)

end NodeView

namespace Json

/-- JSON values as the nodes of a document. -/
def view : NodeView Json where
  text?
    | .null => some none
    | .str s => some (some s)
    | _ => none
  entries?
    | .obj entries => some entries
    | _ => none
  value? v := some v
  idle? _ := true

end Json

end RestContract
