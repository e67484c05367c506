-- TOML text read as a value. A document is a list of sections, each with a header and
-- the pairs below it; the first has no header. Containers nest 79 deep, and a key has at
-- most 79 parts.
import RestContract.Toml.Scalar
import RestContract.Toml.Table
import RestContract.Toml.Text

namespace RestContract.Toml

open Json (Read)

/-- The number at which containers and the parts of keys are too many. -/
def depthLimit : Nat := 80

/-- The parts of the key ahead. -/
def readKeyParts (cs : List Char) : Read (List String) :=
  match readKey (cs.length + 1) cs with
  | some (parts, rest) => if parts.length < depthLimit then some (parts, rest) else none
  | none => none

/-- A key, an equals sign and a value. -/
def readPair (value : List Char → Read Json) (cs : List Char) : Read (List String × Json) :=
  match readKeyParts cs with
  | some (key, '=' :: rest) =>
    (value (skipBlanks rest)).map fun (v, rest) => ((key, v), rest)
  | _ => none

/-- The items of an array, from behind its bracket. A comma may stand behind the last one.
The first argument bounds their number. -/
def readItems (value : List Char → Read Json) : Nat → List Char → Read (List Json)
  | 0, _ => none
  | fuel + 1, cs =>
    match skipLines cs.length cs with
    | ']' :: rest => some ([], rest)
    | cs =>
      match value cs with
      | none => none
      | some (v, rest) =>
        match skipLines rest.length rest with
        | ']' :: rest => some ([v], rest)
        | ',' :: rest => (readItems value fuel rest).map fun (vs, rest) => (v :: vs, rest)
        | _ => none

/-- The pairs of an inline table up to its closing brace. -/
def readPairs (value : List Char → Read Json) : Nat → List Char → Read (List (List String × Json))
  | 0, _ => none
  | fuel + 1, cs =>
    match readPair value cs with
    | none => none
    | some (pair, rest) =>
      match skipBlanks rest with
      | '\x7d' :: rest => some ([pair], rest)
      | ',' :: rest => (readPairs value fuel rest).map fun (pairs, rest) => (pair :: pairs, rest)
      | _ => none

/-- An inline table, from behind its brace. -/
def readInline (value : List Char → Read Json) (cs : List Char) : Read Json :=
  match skipBlanks cs with
  | '\x7d' :: rest => some (.obj [], rest)
  | cs =>
    match readPairs value (cs.length + 1) cs with
    | none => none
    | some (pairs, rest) =>
      (Table.addPairs [] pairs).map fun t => (.obj (Item.entriesJson t), rest)

/-- The value ahead. The first argument is the number of containers that may still nest. -/
def readValue (depth : Nat) (cs : List Char) : Read Json :=
  match cs with
  | '"' :: _ | '\'' :: _ => (readString cs).map fun (s, rest) => (.str s, rest)
  | 't' :: 'r' :: 'u' :: 'e' :: rest => some (.bool true, rest)
  | 'f' :: 'a' :: 'l' :: 's' :: 'e' :: rest => some (.bool false, rest)
  | '[' :: rest =>
    match depth with
    | 0 => none
    | depth + 1 =>
      (readItems (readValue depth) (rest.length + 1) rest).map fun (vs, rest) => (.arr vs, rest)
  | '\x7b' :: rest =>
    match depth with
    | 0 => none
    | depth + 1 => readInline (readValue depth) rest
  | cs => readNumber cs

/-- A value on its own. -/
def readTopValue (cs : List Char) : Read Json := readValue (depthLimit - 1) cs

/-- The header ahead, and whether it has double brackets. -/
def readHeader : List Char → Read (List String × Bool)
  | '[' :: '[' :: cs =>
    match readKeyParts cs with
    | some (key, ']' :: ']' :: rest) => some ((key, true), rest)
    | _ => none
  | '[' :: cs =>
    match readKeyParts cs with
    | some (key, ']' :: rest) => some ((key, false), rest)
    | _ => none
  | _ => none

/-- The pairs in front of the first header, and the sections from there on. The first
argument bounds the number of lines. -/
def readSections : Nat → List Char → Option (List (List String × Json) × List Section)
  | 0, _ => none
  | fuel + 1, cs =>
    match skipLines cs.length cs with
    | [] => some ([], [])
    | '[' :: cs => do
      let ((header, isRow), rest) ← readHeader ('[' :: cs)
      let (pairs, sections) ← readSections fuel (← endLine? rest)
      return ([], { header, isRow, pairs } :: sections)
    | cs => do
      let (pair, rest) ← readPair readTopValue cs
      let (pairs, sections) ← readSections fuel (← endLine? rest)
      return (pair :: pairs, sections)

/-- The characters without the mark that some editors put in front. -/
def dropMark : List Char → List Char
  | '\uFEFF' :: cs => cs
  | cs => cs

/-- The value of a document: the object of its tables. -/
def read? (text : String) : Option Json := do
  let cs := dropMark text.toList
  let (pairs, sections) ← readSections (cs.length + 1) cs
  let root ← Table.addPairs [] pairs
  let root ← sections.foldlM Section.addTo root
  return .obj (Item.entriesJson root)

end RestContract.Toml
