-- Nodes of a YAML document. A node may carry a name, and an alias stands for a named node;
-- to settle a document is to put the named nodes in the places of their aliases.
import RestContract.Entries

namespace RestContract.Yaml

/-- What may stand in front of a node. -/
structure Properties where
  anchor : Option String := none
  tag : Option String := none
  deriving DecidableEq, Repr

/-- The text of a scalar, with its tag and whether it is written without quotes. -/
structure Scalar where
  tag : Option String := none
  text : String
  plain : Bool
  deriving DecidableEq, Repr

/-- A node whose aliases refer to values of some type. -/
inductive Node (α : Type) where
  | scalar (anchor : Option String) (s : Scalar)
  | sequence (p : Properties) (items : List (Node α))
  | mapping (p : Properties) (entries : List (Node α × Node α))
  | aliasOf (target : α)

/-- A node without aliases. -/
inductive Tree where
  | scalar (s : Scalar)
  | sequence (tag : Option String) (items : List Tree)
  | mapping (tag : Option String) (entries : List (Tree × Tree))

namespace Node

/-! ## Names -/

/-- The names that are known at some place, and the nodes that have been named. A name is
known by the number of names in front of it; where a name is given again, its number may be
that of another one, and the node that is named later counts. -/
structure Names where
  numbers : Entries String Nat := []
  named : List (Nat × Node Nat) := []

/-- The names with one more, and its number. -/
def Names.add (names : Names) (anchor : Option String) : Names × Option Nat :=
  match anchor with
  | none => (names, none)
  | some name =>
    let number := names.numbers.length
    ({ names with numbers := Entries.put names.numbers name number }, some number)

/-- The names after a node has got its number. Nodes named within it come later. -/
def Names.record (before inner : Names) (number : Option Nat) (node : Node Nat) : Names :=
  match number with
  | none => inner
  | some n =>
    { inner with
      named := before.named ++ (n, node) :: inner.named.drop before.named.length }

mutual

/-- The node with the numbers of names in its aliases; nothing if a name is not known. -/
def label (names : Names) : Node String → Option (Node Nat × Names)
  | aliasOf name => (Entries.get? names.numbers name).map fun n => (aliasOf n, names)
  | scalar anchor s =>
    let node := scalar anchor s
    let (inner, number) := names.add anchor
    some (node, names.record inner number node)
  | sequence p items => do
    let (start, number) := names.add p.anchor
    let (items, inner) ← labelAll start items
    let node := sequence p items
    return (node, names.record inner number node)
  | mapping p entries => do
    let (start, number) := names.add p.anchor
    let (entries, inner) ← labelEntries start entries
    let node := mapping p entries
    return (node, names.record inner number node)

def labelAll (names : Names) : List (Node String) → Option (List (Node Nat) × Names)
  | [] => some ([], names)
  | n :: ns => do
    let (n, names) ← label names n
    let (ns, names) ← labelAll names ns
    return (n :: ns, names)

def labelEntries (names : Names) :
    List (Node String × Node String) → Option (List (Node Nat × Node Nat) × Names)
  | [] => some ([], names)
  | (k, v) :: es => do
    let (k, names) ← label names k
    let (v, names) ← label names v
    let (es, names) ← labelEntries names es
    return ((k, v) :: es, names)

end

/-! ## Aliases -/

mutual

/-- The number of places in a node: one for each scalar and alias, and two for each
collection. -/
def weight {α : Type} : Node α → Nat
  | scalar .. | aliasOf _ => 1
  | sequence _ items => weightAll items + 2
  | mapping _ entries => weightEntries entries + 2

def weightAll {α : Type} : List (Node α) → Nat
  | [] => 0
  | n :: ns => weight n + weightAll ns

def weightEntries {α : Type} : List (Node α × Node α) → Nat
  | [] => 0
  | (k, v) :: es => weight k + weight v + weightEntries es

end

def depthLimit : Nat := 128

/-- How many aliases may be followed for each place of a document. -/
def aliasFactor : Nat := 100

/-- The node that counts under a number: the one named last. -/
def target? (named : List (Nat × Node Nat)) (number : Nat) : Option (Node Nat) :=
  named.reverse.lookup number

/-- The tree of a node, given how many collections may still nest. The state is the number
of aliases that may still be followed. -/
def expand (named : List (Nat × Node Nat)) : Nat → Node Nat → StateT Nat Option Tree
  | depth, node => do
    let node ← match node with
      | aliasOf n => do
        let left ← get
        if left = 0 then failure
        set (left - 1)
        match target? named n with
        | some node => pure node
        | none => failure
      | node => pure node
    match depth, node with
    | _, scalar _ s => return .scalar s
    | _, aliasOf _ => failure
    | 0, _ => failure
    | depth + 1, sequence p items => return .sequence p.tag (← items.mapM (expand named depth))
    | depth + 1, mapping p entries =>
      return .mapping p.tag (← entries.mapM fun (k, v) => do
        let k ← expand named depth k
        let v ← expand named depth v
        return (k, v))

/-- The tree of a document. -/
def settle? (root : Node String) : Option Tree := do
  let (node, names) ← label {} root
  let (tree, _) ← (expand names.named depthLimit node).run (aliasFactor * node.weight)
  return tree

end Node

end RestContract.Yaml
