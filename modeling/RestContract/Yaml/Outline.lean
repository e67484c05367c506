-- The outline of a manifest in YAML. Where a map is expected an empty place is an empty
-- map, and where a text is expected any word is one.
import RestContract.Manifest.Outline
import RestContract.Yaml.Grammar
import RestContract.Yaml.Resolution

namespace RestContract.Yaml

def Tree.text? : Tree → Option (Option String)
  | .scalar s => s.isAbsent?.map fun absent => if absent then none else some s.text
  | _ => none

def Tree.entries? : Tree → Option (List (String × Tree))
  | .mapping _ entries => entries.mapM fun (k, v) => (k.key? false).map (·, v)
  | .scalar s => if s.plain && s.text.isEmpty then some [] else none
  | .sequence .. => none

/-- Trees as the nodes of a document. Values that mean nothing are taken with their keys
for what they stand for. -/
def Tree.view : NodeView Tree where
  text? := Tree.text?
  entries? := Tree.entries?
  value? := Tree.value? false
  idle? t := (t.value? true).isSome

def outline? (text : String) : Option Outline := (read? text).bind Tree.view.outline?

end RestContract.Yaml
