-- Layout: the text as tokens, with the starts and ends of block collections that its
-- indentation stands for. That a word is a key shows only at the colon behind it, so the
-- places where a key could begin are remembered until then.
import RestContract.Yaml.Scalar
import RestContract.Yaml.Token

namespace RestContract.Yaml

/-- A place where a key may have begun: on one line, and at most 1024 characters long. -/
structure PossibleKey where
  /-- The indentation leaves no choice: it is a key. -/
  required : Bool
  /-- The number of tokens in front of it. -/
  token : Nat
  start : Cursor

/-- The length that a key must not exceed. -/
def keyLimit : Nat := 1024

/-- A text that is being taken apart. -/
structure Layout where
  cursor : Cursor
  tokens : Array Token := #[]
  /-- The column of the block collection around; negative if there is none. -/
  indent : Int := -1
  /-- The columns of the block collections around that. -/
  outerIndents : List Int := []
  /-- Where the key may have begun that is possible here. -/
  possible : Option PossibleKey := none
  /-- The same for each flow collection that surrounds this place. -/
  outer : List (Option PossibleKey) := []
  /-- A key may begin here. -/
  keyAllowed : Bool := true

namespace Layout

/-- The place is within a flow collection. -/
def inFlow (l : Layout) : Bool := !l.outer.isEmpty

/-! ## Tokens -/

def push (l : Layout) (t : Token) : Layout := { l with tokens := l.tokens.push t }

/-- Puts a token in front of those from some place on. -/
def insertAt (l : Layout) (place : Nat) (t : Token) : Layout :=
  { l with tokens := (l.tokens.toList.insertIdx place t).toArray }

/-- The text behind a token of so many characters. -/
def take (l : Layout) (t : Token) (length : Nat) : Layout :=
  { l with cursor := l.cursor.skip length }.push t

/-! ## Indentation -/

/-- Ends the block collections that stand deeper than a column. -/
def unroll (column : Int) : List Int → Layout → Layout
  | outers, l =>
    if l.inFlow || l.indent ≤ column then l
    else match outers with
      | [] => { l with indent := -1, outerIndents := [] }.push .blockEnd
      | outer :: outers =>
        unroll column outers ({ l with indent := outer, outerIndents := outers }.push .blockEnd)

/-- Ends the block collections that stand deeper than a column. -/
def unrollTo (l : Layout) (column : Int) : Layout := unroll column l.outerIndents l

/-- Begins a block collection at a column, unless there is one, with its token in front of
those from some place on. -/
def roll (l : Layout) (column : Nat) (place : Nat) (t : Token) : Layout :=
  if !l.inFlow && l.indent < column then
    { l with indent := column, outerIndents := l.indent :: l.outerIndents }.insertAt place t
  else l

/-! ## Possible keys -/

/-- The key is too long, or its line has ended. -/
def isStale (c : Cursor) (k : PossibleKey) : Bool :=
  k.start.line < c.line || k.start.index + keyLimit < c.index

/-- The place where a key may have begun, unless that is past. Nothing if it had to be one. -/
def stillPossible (c : Cursor) (k : Option PossibleKey) : Option (Option PossibleKey) :=
  match k with
  | none => some none
  | some k => if !isStale c k then some (some k) else if k.required then none else some none

/-- Forgets the places where a key cannot have begun any more. -/
def dropStale (l : Layout) : Option Layout := do
  let possible ← stillPossible l.cursor l.possible
  let outer ← l.outer.mapM (stillPossible l.cursor)
  return { l with possible, outer }

/-- Gives up the key that was possible here. -/
def noKey (l : Layout) : Option Layout :=
  if l.possible.any (·.required) then none else some { l with possible := none }

/-- Remembers that a key may begin here. -/
def mayBeKey (l : Layout) : Option Layout :=
  if l.keyAllowed then do
    let l ← l.noKey
    return { l with
      possible := some
        { required := !l.inFlow && l.indent == l.cursor.column
          token := l.tokens.size
          start := l.cursor } }
  else some l

/-! ## Gaps -/

/-- Reads on to the next token, over blanks, comments and breaks. Tabs do not count where a
key may begin in a block. The first argument bounds the number of lines. -/
def skipGap : Nat → Layout → Layout
  | 0, l => l
  | fuel + 1, l =>
    let c := if l.cursor.index == 0 && l.cursor.sees '\uFEFF' then l.cursor.skip 1 else l.cursor
    let c := (c.takeWhile fun ch => ch == ' ' || (ch == '\t' && (l.inFlow || !l.keyAllowed))).2
    let c := c.skipComment
    if c.seesBreak then
      skipGap fuel { l with cursor := c.readBreak.2, keyAllowed := l.keyAllowed || !l.inFlow }
    else { l with cursor := c }

/-! ## The tokens by their first character -/

/-- Ends all block collections, and with them the key that was possible. -/
def endBlocks (l : Layout) : Option Layout := do
  let l ← (l.unrollTo (-1)).noKey
  return { l with keyAllowed := false }

def fetchDirective (l : Layout) : Option Layout := do
  let l ← l.endBlocks
  let (token, rest) ← readDirective (l.cursor.ahead.drop 1)
  let c := l.cursor.skip (l.cursor.ahead.length - rest.length)
  return { l with cursor := ← c.endLine? }.push token

def fetchDocumentMark (l : Layout) (t : Token) : Option Layout := do
  let l ← l.endBlocks
  return l.take t 3

def fetchFlowStart (l : Layout) (t : Token) : Option Layout := do
  let l ← l.mayBeKey
  return { l with possible := none, outer := l.possible :: l.outer, keyAllowed := true }.take t 1

def fetchFlowEnd (l : Layout) (t : Token) : Option Layout := do
  let l ← l.noKey
  let l := { l with keyAllowed := false }
  match l.outer with
  | [] => return l.take t 1
  | possible :: outer => return { l with possible, outer }.take t 1

def fetchComma (l : Layout) : Option Layout := do
  let l ← l.noKey
  return { l with keyAllowed := true }.take .comma 1

/-- The dash of an item. -/
def fetchItem (l : Layout) : Option Layout := do
  guard (l.inFlow || l.keyAllowed)
  let l ← (l.roll l.cursor.column l.tokens.size .blockSequence).noKey
  return { l with keyAllowed := true }.take .item 1

/-- The question mark of a key. -/
def fetchKey (l : Layout) : Option Layout := do
  guard (l.inFlow || l.keyAllowed)
  let l ← (l.roll l.cursor.column l.tokens.size .blockMapping).noKey
  return { l with keyAllowed := !l.inFlow }.take .key 1

/-- The colon of a value. If a key was possible, it has now been one. -/
def fetchValue (l : Layout) : Option Layout :=
  match l.possible with
  | some k =>
    let l := (l.insertAt k.token .key).roll k.start.column k.token .blockMapping
    some ({ l with possible := none, keyAllowed := false }.take .value 1)
  | none => do
    guard (l.inFlow || l.keyAllowed)
    let l := l.roll l.cursor.column l.tokens.size .blockMapping
    return { l with keyAllowed := !l.inFlow }.take .value 1

/-- The text behind a token of a node, which a key may begin with. -/
def afterNode (l : Layout) (t : Token) (rest : List Char) : Layout :=
  { l with keyAllowed := false }.take t (l.cursor.ahead.length - rest.length)

def fetchName (l : Layout) (t : String → Token) : Option Layout := do
  let l ← l.mayBeKey
  let (name, rest) ← readAnchorName (l.cursor.ahead.drop 1)
  return l.afterNode (t name) rest

/-- A tag. A comma may follow it only in a flow collection. -/
def fetchTag (l : Layout) : Option Layout := do
  let l ← l.mayBeKey
  let (t, rest) ← readTag l.cursor.ahead
  guard (gapAhead rest || (l.inFlow && rest.head? == some ','))
  return l.afterNode (.tag t) rest

def fetchBlock (l : Layout) (folded : Bool) : Option Layout := do
  let l ← l.noKey
  let (text, cursor) ← readBlock folded l.indent (l.cursor.skip 1)
  return { l with cursor, keyAllowed := true }.push (.scalar (String.ofList text) false)

def fetchQuoted (l : Layout) (quote : Char) : Option Layout := do
  let l ← l.mayBeKey
  let (text, cursor) ← readQuoted quote (l.cursor.ahead.length + 1) [] (l.cursor.skip 1)
  return { l with cursor, keyAllowed := false }.push (.scalar (String.ofList text) false)

def fetchPlain (l : Layout) : Option Layout := do
  let l ← l.mayBeKey
  let s ← readPlain l.inFlow (l.indent + 1) (l.cursor.ahead.length + 1) [] {} l.cursor
  return { l with cursor := s.rest, keyAllowed := s.broken }.push
    (.scalar (String.ofList s.text) true)

/-- The characters that cannot begin a plain scalar. -/
def indicators : List Char := "-?:,[]\x7b\x7d#&*!|>'\"%@\x60".toList

def beginsPlain (inFlow : Bool) : List Char → Bool
  | [] => false
  | c :: cs =>
    (!isBlank c && !isBreak c && !indicators.contains c) ||
      (c == '-' && !cs.head?.any isBlank) ||
      (!inFlow && (c == '?' || c == ':') && !gapAhead cs)

/-- The token that begins with the character ahead. -/
def fetch (l : Layout) (ch : Char) (next : List Char) : Option Layout :=
  if l.cursor.column == 0 && ch == '%' then l.fetchDirective
  else if l.cursor.seesDocumentMark then
    l.fetchDocumentMark (if ch == '-' then .documentStart else .documentEnd)
  else if ch == '[' then l.fetchFlowStart .flowSequence
  else if ch == '\x7b' then l.fetchFlowStart .flowMapping
  else if ch == ']' then l.fetchFlowEnd .flowSequenceEnd
  else if ch == '\x7d' then l.fetchFlowEnd .flowMappingEnd
  else if ch == ',' then l.fetchComma
  else if ch == '-' && gapAhead next then l.fetchItem
  else if ch == '?' && (l.inFlow || gapAhead next) then l.fetchKey
  else if ch == ':' && (l.inFlow || gapAhead next) then l.fetchValue
  else if ch == '*' then l.fetchName .aliasOf
  else if ch == '&' then l.fetchName .anchor
  else if ch == '!' then l.fetchTag
  else if ch == '|' && !l.inFlow then l.fetchBlock false
  else if ch == '>' && !l.inFlow then l.fetchBlock true
  else if ch == '\'' || ch == '"' then l.fetchQuoted ch
  else if beginsPlain l.inFlow l.cursor.ahead then l.fetchPlain
  else none

/-- The tokens of the rest of a text. The first argument bounds their number. -/
def finish : Nat → Layout → Option (List Token)
  | 0, _ => none
  | fuel + 1, l => do
    let l := l.skipGap (l.cursor.ahead.length + 1)
    let l ← l.dropStale
    let l := l.unrollTo l.cursor.column
    match l.cursor.ahead with
    | [] => return (← (l.unrollTo (-1)).noKey).tokens.toList
    | ch :: next => finish fuel (← l.fetch ch next)

end Layout

def tokens? (text : String) : Option (List Token) :=
  let cs := text.toList
  if cs.all isAllowed then ({ cursor := { ahead := cs } } : Layout).finish (cs.length + 1)
  else none

end RestContract.Yaml
