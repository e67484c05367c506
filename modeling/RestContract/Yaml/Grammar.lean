-- The grammar of YAML: nodes from tokens. What stands between two marks may be left out,
-- and then there is an empty scalar in its place.
import RestContract.Yaml.Layout
import RestContract.Yaml.Node

namespace RestContract.Yaml

/-- The beginnings of tags by their handles. -/
abbrev Handles := List (String × String)

/-- The tag that a written tag stands for, if its handle is known. -/
def Handles.resolve? (handles : Handles) (t : WrittenTag) : Option String :=
  if t.handle.isEmpty then some t.rest
  else (handles.lookup t.handle).map (· ++ t.rest)

/-- The properties in front of a node: an anchor and a tag, in any order. -/
def readProperties (handles : Handles) : List Token → Option (Properties × List Token)
  | .anchor a :: .tag t :: ts | .tag t :: .anchor a :: ts =>
    (handles.resolve? t).map fun tag => ({ anchor := some a, tag := some tag }, ts)
  | .anchor a :: ts => some ({ anchor := some a }, ts)
  | .tag t :: ts => (handles.resolve? t).map fun tag => ({ tag := some tag }, ts)
  | ts => some ({}, ts)

/-- Where a node stands. -/
inductive NodePlace where
  | flow
  | block
  /-- In a block mapping, where items may stand without further indentation. -/
  | mapping
  deriving DecidableEq, Repr

/-- The empty scalar. -/
def emptyNode (p : Properties) : Node String :=
  .scalar p.anchor { tag := p.tag, text := "", plain := true }

/-- The token ahead is one of some. -/
def endsAt (marks : List Token) (ts : List Token) : Bool := ts.head?.any marks.contains

/-- The token ahead is one of some, or there is none: the node is left out. Otherwise it is
read. -/
def orEmpty (marks : List Token) (read : List Token → Option (Node String × List Token))
    (ts : List Token) : Option (Node String × List Token) :=
  if endsAt marks ts then some (emptyNode {}, ts) else read ts

/-- The value ahead, if there is one. -/
def readValueNode (marks : List Token) (read : List Token → Option (Node String × List Token)) :
    List Token → Option (Node String × List Token)
  | .value :: ts => orEmpty marks read ts
  | ts => some (emptyNode {}, ts)

/-- The items of a block sequence up to its end, from in front of a dash. -/
def readItems (read : List Token → Option (Node String × List Token)) :
    Nat → List Token → Option (List (Node String) × List Token)
  | fuel + 1, .item :: ts => do
    let (node, ts) ← orEmpty [.item, .blockEnd] read ts
    let (nodes, ts) ← readItems read fuel ts
    return (node :: nodes, ts)
  | _, .blockEnd :: ts => some ([], ts)
  | _, _ => none

/-- The items that stand in a block mapping without further indentation. -/
def readLooseItems (read : List Token → Option (Node String × List Token)) :
    Nat → List Token → Option (List (Node String) × List Token)
  | fuel + 1, .item :: ts => do
    let (node, ts) ← orEmpty [.item, .key, .value, .blockEnd] read ts
    let (nodes, ts) ← readLooseItems read fuel ts
    return (node :: nodes, ts)
  | _, ts => some ([], ts)

/-- The entries of a block mapping up to its end. -/
def readEntries (read : List Token → Option (Node String × List Token)) :
    Nat → List Token → Option (List (Node String × Node String) × List Token)
  | fuel + 1, .key :: ts => do
    let marks := [.key, .value, .blockEnd]
    let (key, ts) ← orEmpty marks read ts
    let (value, ts) ← readValueNode marks read ts
    let (entries, ts) ← readEntries read fuel ts
    return ((key, value) :: entries, ts)
  | _, .blockEnd :: ts => some ([], ts)
  | _, _ => none

/-- The place of the next entry of a flow collection: behind a comma, unless it is the
first. -/
def skipComma (first : Bool) (ts : List Token) : Option (List Token) :=
  if first then some ts
  else match ts with
    | .comma :: ts => some ts
    | _ => none

/-- A key and its value in a flow sequence, from behind the mark of the key. Where the key
is left out, the token ahead is passed over. -/
def readFlowPair (read : List Token → Option (Node String × List Token)) (ts : List Token) :
    Option (Node String × List Token) := do
  let (key, ts) ←
    if endsAt [.value, .comma, .flowSequenceEnd] ts then some (emptyNode {}, ts.drop 1)
    else read ts
  let (value, ts) ← readValueNode [.comma, .flowSequenceEnd] read ts
  return (.mapping {} [(key, value)], ts)

/-- The items of a flow sequence up to its end. -/
def readFlowItems (read : List Token → Option (Node String × List Token)) :
    Nat → Bool → List Token → Option (List (Node String) × List Token)
  | 0, _, _ => none
  | fuel + 1, first, ts =>
    if endsAt [.flowSequenceEnd] ts then some ([], ts.drop 1)
    else do
      let ts ← skipComma first ts
      if endsAt [.flowSequenceEnd] ts then return ([], ts.drop 1)
      let (node, ts) ← if endsAt [.key] ts then readFlowPair read (ts.drop 1) else read ts
      let (nodes, ts) ← readFlowItems read fuel false ts
      return (node :: nodes, ts)

/-- The entries of a flow mapping up to its end. -/
def readFlowEntries (read : List Token → Option (Node String × List Token)) :
    Nat → Bool → List Token → Option (List (Node String × Node String) × List Token)
  | 0, _, _ => none
  | fuel + 1, first, ts =>
    if endsAt [.flowMappingEnd] ts then some ([], ts.drop 1)
    else do
      let ts ← skipComma first ts
      if endsAt [.flowMappingEnd] ts then return ([], ts.drop 1)
      let marks := [.comma, .flowMappingEnd]
      let (entry, ts) ←
        if endsAt [.key] ts then do
          let (key, ts) ← orEmpty (.value :: marks) read (ts.drop 1)
          let (value, ts) ← readValueNode marks read ts
          pure ((key, value), ts)
        else do
          let (key, ts) ← read ts
          pure ((key, emptyNode {}), ts)
      let (entries, ts) ← readFlowEntries read fuel false ts
      return (entry :: entries, ts)

/-- A node. The first argument bounds how deep it nests. -/
def readNode (handles : Handles) :
    Nat → NodePlace → List Token → Option (Node String × List Token)
  | 0, _, _ => none
  | depth + 1, place, ts => do
    if let .aliasOf name :: ts := ts then return (.aliasOf name, ts)
    let (p, ts) ← readProperties handles ts
    let size := ts.length + 1
    match place, ts with
    | .mapping, .item :: _ =>
      let (items, ts) ← readLooseItems (readNode handles depth .block) size ts
      return (.sequence p items, ts)
    | _, .scalar text plain :: ts => return (.scalar p.anchor { tag := p.tag, text, plain }, ts)
    | _, .flowSequence :: ts =>
      let (items, ts) ← readFlowItems (readNode handles depth .flow) size true ts
      return (.sequence p items, ts)
    | _, .flowMapping :: ts =>
      let (entries, ts) ← readFlowEntries (readNode handles depth .flow) size true ts
      return (.mapping p entries, ts)
    | place, ts =>
      match place == .flow, ts with
      | false, .blockSequence :: ts =>
        let (items, ts) ← readItems (readNode handles depth .block) size ts
        return (.sequence p items, ts)
      | false, .blockMapping :: ts =>
        let (entries, ts) ← readEntries (readNode handles depth .mapping) size ts
        return (.mapping p entries, ts)
      | _, ts => if p == {} then failure else return (emptyNode p, ts)

/-! ## Documents -/

/-- The handles that need no directive. -/
def knownHandles : Handles := [("!", "!"), ("!!", "tag:yaml.org,2002:")]

/-- The handles of the directives ahead, of which one may be about the version. -/
def readDirectives (versioned : Bool) (handles : Handles) :
    List Token → Option (Handles × List Token)
  | .version major minor :: ts =>
    if versioned || major != 1 || (minor != 1 && minor != 2) then none
    else readDirectives true handles ts
  | .handle handle beginning :: ts =>
    if handles.any (·.1 == handle) then none
    else readDirectives versioned (handles ++ [(handle, beginning)]) ts
  | ts => some (handles ++ knownHandles, ts)

/-- The token is a directive or a mark of documents. -/
def endsDocument : Token → Bool
  | .version .. | .handle .. | .documentStart | .documentEnd => true
  | _ => false

/-- The root of the only document of a text. -/
def readDocument (ts : List Token) : Option (Node String) := do
  let depth := ts.length + 1
  let (handles, body) ← readDirectives false [] ts
  let (root, rest) ←
    match body with
    | .documentStart :: body =>
      if body.isEmpty || body.head?.any endsDocument then some (emptyNode {}, body)
      else readNode handles depth .block body
    | body => if ts.head?.any endsDocument then none else readNode handles depth .block body
  guard (rest.all (· == .documentEnd))
  return root

/-- The tree of the document of a text. A text without any token is an empty scalar. -/
def read? (text : String) : Option Tree := do
  match ← tokens? text with
  | [] => return .scalar { text := "", plain := true }
  | ts => (← readDocument ts).settle?

end RestContract.Yaml
