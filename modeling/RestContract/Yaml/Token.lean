-- Tokens of YAML, and the ones that are read the same wherever they stand: anchors,
-- aliases, tags and directives.
import RestContract.Json.Reader
import RestContract.Yaml.Cursor

namespace RestContract.Yaml

/-- A tag as it is written: a handle, which stands for the beginning of the tag, and the
rest. A tag without a handle is written out. -/
structure WrittenTag where
  handle : String
  rest : String
  deriving DecidableEq, Repr

inductive Token where
  /-- The version of YAML that a document asks for. -/
  | version (major minor : Nat)
  /-- A handle for the beginning of tags. -/
  | handle (handle beginning : String)
  | documentStart
  | documentEnd
  | blockSequence
  | blockMapping
  | blockEnd
  | flowSequence
  | flowSequenceEnd
  | flowMapping
  | flowMappingEnd
  /-- The dash of an item. -/
  | item
  /-- The comma between the entries of a flow collection. -/
  | comma
  /-- A key follows. -/
  | key
  /-- A value follows. -/
  | value
  | aliasOf (name : String)
  | anchor (name : String)
  | tag (t : WrittenTag)
  /-- A scalar, written without quotes or otherwise. -/
  | scalar (text : String) (plain : Bool)
  deriving DecidableEq, Repr

/-! ## Anchors and aliases -/

/-- The characters that may follow the name of an anchor. -/
def afterName : List Char := "?:,]\x7d%@\x60".toList

def readAnchorName (cs : List Char) : Option (String × List Char) :=
  let (name, rest) := cs.span isNameChar
  if name.isEmpty then none
  else if gapAhead rest || rest.head?.any afterName.contains then
    some (String.ofList name, rest)
  else none

/-! ## Tags -/

/-- The characters of tags besides those of names. -/
def tagMarks : List Char := ";/?:@&=+$.!~*'()".toList

/-- A character of a tag. Written-out tags and the beginnings of tags may hold three more. -/
def isTagChar (writtenOut : Bool) (c : Char) : Bool :=
  isNameChar c || tagMarks.contains c || (writtenOut && (c == ',' || c == '[' || c == ']'))

/-- A percent sign and a byte in base sixteen. -/
def readByte : List Char → Option (UInt8 × List Char)
  | '%' :: a :: b :: rest => (Json.hexNumber? [a, b]).map fun n => (.ofNat n, rest)
  | _ => none

/-- The number of bytes of a character whose first byte this is. -/
def byteCount? (first : UInt8) : Option Nat :=
  if first < 0x80 then some 1
  else if 0xC0 ≤ first && first < 0xE0 then some 2
  else if 0xE0 ≤ first && first < 0xF0 then some 3
  else if 0xF0 ≤ first && first < 0xF8 then some 4
  else none

def readBytes : Nat → List Char → Option (List UInt8 × List Char)
  | 0, cs => some ([], cs)
  | n + 1, cs => do
    let (b, rest) ← readByte cs
    let (bs, rest) ← readBytes n rest
    return (b :: bs, rest)

/-- A character that is written as its bytes. -/
def readByteChar (cs : List Char) : Option (List Char × List Char) := do
  let (first, _) ← readByte cs
  let (bytes, rest) ← readBytes (← byteCount? first) cs
  let text ← String.fromUTF8? (ByteArray.mk bytes.toArray)
  return (text.toList, rest)

/-- The characters of a tag ahead. The first number bounds how many there are. -/
def readTagChars (writtenOut : Bool) : Nat → List Char → Option (List Char × List Char)
  | 0, cs => some ([], cs)
  | _, [] => some ([], [])
  | fuel + 1, c :: cs =>
    if c == '%' then do
      let (text, rest) ← readByteChar (c :: cs)
      let (more, rest) ← readTagChars writtenOut fuel rest
      return (text ++ more, rest)
    else if isTagChar writtenOut c then
      (readTagChars writtenOut fuel cs).map fun (more, rest) => (c :: more, rest)
    else some ([], c :: cs)

/-- The characters of a tag ahead, of which there is at least one. -/
def readSomeTagChars (writtenOut : Bool) (cs : List Char) : Option (String × List Char) :=
  match readTagChars writtenOut cs.length cs with
  | some (c :: text, rest) => some (String.ofList (c :: text), rest)
  | _ => none

/-- The tag ahead. An exclamation mark alone is a tag of its own. -/
def readTag : List Char → Option (WrittenTag × List Char)
  | '!' :: '<' :: cs =>
    match readSomeTagChars true cs with
    | some (rest, '>' :: after) => some (⟨"", rest⟩, after)
    | _ => none
  | '!' :: cs =>
    let (name, after) := cs.span isNameChar
    match after with
    | '!' :: after =>
      (readSomeTagChars false after).map fun (rest, after) =>
        (⟨String.ofList ('!' :: name ++ ['!']), rest⟩, after)
    | after =>
      (readTagChars false after.length after).map fun (more, after) =>
        if name.isEmpty && more.isEmpty then (⟨"", "!"⟩, after)
        else (⟨"!", String.ofList (name ++ more)⟩, after)
  | _ => none

/-! ## Directives -/

/-- A number of a version, of at most nine digits. -/
def readVersionNumber (cs : List Char) : Option (Nat × List Char) :=
  let (digits, rest) := cs.span Char.isDigit
  if digits.isEmpty || 9 < digits.length then none
  else some (digits.foldl (fun n c => n * 10 + (c.toNat - '0'.toNat)) 0, rest)

def readVersion (cs : List Char) : Option (Token × List Char) := do
  let (major, rest) ← readVersionNumber cs
  match rest with
  | '.' :: rest =>
    let (minor, rest) ← readVersionNumber rest
    return (.version major minor, rest)
  | _ => none

/-- A handle as a directive defines it: exclamation marks around a name, or a single one. -/
def readHandle : List Char → Option (String × List Char)
  | '!' :: cs =>
    let (name, rest) := cs.span isNameChar
    match rest with
    | '!' :: rest => some (String.ofList ('!' :: name ++ ['!']), rest)
    | rest => if name.isEmpty then some ("!", rest) else none
  | _ => none

/-- The handle of a directive and the beginning of tags that it stands for. -/
def readHandleDirective (cs : List Char) : Option (Token × List Char) := do
  let (handle, rest) ← readHandle cs
  guard (rest.head?.any isBlank)
  let (beginning, rest) ← readSomeTagChars true (rest.dropWhile isBlank)
  guard (gapAhead rest)
  return (.handle handle beginning, rest)

/-- The directive ahead, from behind its percent sign. -/
def readDirective (cs : List Char) : Option (Token × List Char) := do
  let (name, rest) := cs.span isNameChar
  guard (gapAhead rest)
  match String.ofList name with
  | "YAML" => readVersion (rest.dropWhile isBlank)
  | "TAG" => readHandleDirective (rest.dropWhile isBlank)
  | _ => none

end RestContract.Yaml
