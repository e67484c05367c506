-- The text of scalars: plain words, quoted text, and blocks of lines. A line break within
-- a plain or quoted scalar is a space, and only further breaks are kept.
import RestContract.Json.Reader
import RestContract.Yaml.Cursor

namespace RestContract.Yaml

/-! ## Gaps between words -/

/-- What stands between two words of a scalar. -/
structure Gap where
  blanks : List Char := []
  /-- There was a break, so that blanks do not count any more. -/
  broken : Bool := false
  /-- The first break. -/
  first : List Char := []
  /-- The other breaks. -/
  others : List Char := []

namespace Gap

/-- The text that a gap stands for. -/
def text (g : Gap) : List Char :=
  if !g.broken then g.blanks
  else if g.first.head? == some '\n' then
    if g.others.isEmpty then [' '] else g.others
  else g.first ++ g.others

def addBreak (g : Gap) (text : List Char) : Gap :=
  if g.broken then { g with others := g.others ++ text }
  else { g with blanks := [], broken := true, first := text }

/-- Reads on over blanks and breaks. A tab at the start of a line must not stand in front of
the given column. The first argument bounds the number of characters. -/
def read (indent : Int) : Nat → Gap → Cursor → Option (Gap × Cursor)
  | 0, g, c => some (g, c)
  | fuel + 1, g, c =>
    match c.head? with
    | none => some (g, c)
    | some ch =>
      if isBlank ch then
        if g.broken && ch == '\t' && c.column < indent then none
        else
          let g := if g.broken then g else { g with blanks := g.blanks ++ [ch] }
          read indent fuel g (c.skip 1)
      else if isBreak ch then
        let (text, c) := c.readBreak
        read indent fuel (g.addBreak text) c
      else some (g, c)

end Gap

/-! ## Plain scalars -/

/-- A character that ends a word in a flow collection. -/
def isFlowMark (c : Char) : Bool :=
  c == ',' || c == '[' || c == ']' || c == '\x7b' || c == '\x7d'

/-- The characters of the word ahead, with what follows; nothing if a colon stands directly
in front of a mark of a flow collection. -/
def readWord (inFlow : Bool) : List Char → Option (List Char × List Char)
  | [] => some ([], [])
  | c :: cs =>
    if isBlank c || isBreak c then some ([], c :: cs)
    else if inFlow && c == ':' && cs.head?.any (fun d => isFlowMark d || d == '?') then none
    else if (c == ':' && gapAhead cs) || (inFlow && isFlowMark c) then some ([], c :: cs)
    else (readWord inFlow cs).map fun (word, rest) => (c :: word, rest)

/-- A scalar that has been read. -/
structure PlainScalar where
  text : List Char
  /-- The scalar was followed by a line break. -/
  broken : Bool
  rest : Cursor

/-- Reads on a plain scalar, behind the gap that follows the text so far. The first argument
bounds the number of words. -/
def readPlain (inFlow : Bool) (indent : Int) :
    Nat → List Char → Gap → Cursor → Option PlainScalar
  | 0, text, gap, c => some { text, broken := gap.broken, rest := c }
  | fuel + 1, text, gap, c =>
    if c.seesDocumentMark || c.sees '#' then some { text, broken := gap.broken, rest := c }
    else match readWord inFlow c.ahead with
      | none => none
      | some ([], _) => some { text, broken := gap.broken, rest := c }
      | some (word, _) =>
        let text := text ++ gap.text ++ word
        let c := c.skip word.length
        match Gap.read indent c.ahead.length {} c with
        | none => none
        | some (gap, c) =>
          if !inFlow && c.column < indent then some { text, broken := gap.broken, rest := c }
          else readPlain inFlow indent fuel text gap c

/-! ## Quoted scalars -/

/-- The character that a one-letter escape stands for. -/
def escaped? (c : Char) : Option Char :=
  [('0', '\x00'), ('a', '\x07'), ('b', '\x08'), ('t', '\t'), ('\t', '\t'), ('n', '\n'),
   ('v', '\x0b'), ('f', '\x0c'), ('r', '\r'), ('e', '\x1b'), (' ', ' '), ('"', '"'), ('/', '/'),
   ('\\', '\\'), ('N', '\u0085'), ('_', '\u00a0'), ('L', '\u2028'), ('P', '\u2029')].lookup c

/-- The number of digits that a numeric escape has. -/
def escapeWidth? : Char → Option Nat
  | 'x' => some 2
  | 'u' => some 4
  | 'U' => some 8
  | _ => none

/-- The character of a code point, which must not be a surrogate. -/
def scalarValue? (n : Nat) : Option Char :=
  if n < 0xD800 || (0xE000 ≤ n && n < 0x110000) then some (Char.ofNat n) else none

/-- The character of the escape whose letter is ahead, and the number of characters that it
takes. -/
def readEscape (cs : List Char) : Option (Char × Nat) :=
  match cs with
  | [] => none
  | c :: cs =>
    match escapeWidth? c with
    | none => (escaped? c).map (·, 1)
    | some width =>
      let digits := cs.take width
      if digits.length == width then
        ((Json.hexNumber? digits).bind scalarValue?).map (·, width + 1)
      else none

/-- A part of a quoted scalar without blanks and breaks. -/
structure QuotedWord where
  text : List Char
  /-- A backslash stood in front of the break that ended the word. -/
  escapedBreak : Bool
  rest : Cursor

/-- Reads on a word up to a blank, a break, the quote that ends the scalar, or a backslash
in front of a break. The first argument bounds the number of characters. -/
def readQuotedWord (quote : Char) : Nat → List Char → Cursor → Option QuotedWord
  | 0, text, c => some { text, escapedBreak := false, rest := c }
  | fuel + 1, text, c =>
    match c.ahead with
    | [] => some { text, escapedBreak := false, rest := c }
    | ch :: next =>
      if isBlank ch || isBreak ch then some { text, escapedBreak := false, rest := c }
      else if ch == quote then
        if quote == '\'' && next.head? == some '\'' then
          readQuotedWord quote fuel (text ++ ['\'']) (c.skip 2)
        else some { text, escapedBreak := false, rest := c }
      else if quote == '"' && ch == '\\' then
        if next.head?.any isBreak then
          some { text, escapedBreak := true, rest := (c.skip 1).readBreak.2 }
        else match readEscape next with
          | none => none
          | some (e, n) => readQuotedWord quote fuel (text ++ [e]) (c.skip (n + 1))
      else readQuotedWord quote fuel (text ++ [ch]) (c.skip 1)

/-- Reads on a quoted scalar from behind its quote to behind the quote that ends it. The
first argument bounds the number of words. -/
def readQuoted (quote : Char) : Nat → List Char → Cursor → Option (List Char × Cursor)
  | 0, _, _ => none
  | fuel + 1, text, c =>
    if c.seesDocumentMark || c.ahead.isEmpty then none
    else match readQuotedWord quote c.ahead.length [] c with
      | none => none
      | some word =>
        let text := text ++ word.text
        if word.rest.sees quote then some (text, word.rest.skip 1)
        else
          match Gap.read 0 word.rest.ahead.length { broken := word.escapedBreak } word.rest with
          | none => none
          | some (gap, c) => readQuoted quote fuel (text ++ gap.text) c

/-! ## Blocks of lines -/

/-- What happens to the breaks at the end of a block. -/
inductive Chomping where
  /-- They are dropped. -/
  | strip
  /-- One of them stays. -/
  | clip
  /-- They stay. -/
  | keep
  deriving DecidableEq, Repr

/-- What stands behind the indicator of a block. -/
structure BlockHeader where
  chomping : Chomping := .clip
  /-- How much deeper the lines are indented, if that is given. -/
  increment : Option Nat := none

/-- The mark of a chomping. -/
def chomping? : Char → Option Chomping
  | '-' => some .strip
  | '+' => some .keep
  | _ => none

/-- The digit of an increment. -/
def increment? (c : Char) : Option Nat := if c.isDigit then some (c.toNat - '0'.toNat) else none

/-- The header of a block: a chomping and an increment in any order, each if it is given. An
increment is not zero. -/
def readBlockHeader (c : Cursor) : Option (BlockHeader × Cursor) :=
  let result : BlockHeader × Cursor :=
    match c.ahead with
    | [] => ({}, c)
    | a :: rest =>
      match chomping? a, increment? a with
      | some chomping, _ =>
        match rest.head?.bind increment? with
        | some n => ({ chomping, increment := some n }, c.skip 2)
        | none => ({ chomping }, c.skip 1)
      | none, some n =>
        match rest.head?.bind chomping? with
        | some chomping => ({ chomping, increment := some n }, c.skip 2)
        | none => ({ increment := some n }, c.skip 1)
      | none, none => ({}, c)
  if result.1.increment == some 0 then none else some result

/-- Empty lines and indentation in front of the lines of a block. -/
structure BlockBreaks where
  breaks : List Char := []
  /-- The greatest column at which indentation ended. -/
  deepest : Nat := 0
  rest : Cursor

/-- Reads on over empty lines and the indentation of the next line, up to a column if the
indentation is known. The first argument bounds the number of lines. -/
def readBlockBreaks (indent : Option Nat) : Nat → BlockBreaks → Option BlockBreaks
  | 0, b => some b
  | fuel + 1, b =>
    let spaces := (b.rest.ahead.takeWhile (· == ' ')).length
    let c := b.rest.skip <| match indent with
      | none => spaces
      | some n => min spaces (n - b.rest.column)
    let deepest := max b.deepest c.column
    if (indent.all (c.column < ·)) && c.sees '\t' then none
    else if c.seesBreak then
      let (text, c) := c.readBreak
      readBlockBreaks indent fuel { breaks := b.breaks ++ text, deepest, rest := c }
    else some { b with deepest, rest := c }

/-- A block that is being read. -/
structure PartialBlock where
  text : List Char := []
  /-- The break at the end of the last line. -/
  lineBreak : List Char := []
  /-- The breaks of the empty lines behind it. -/
  breaks : List Char := []
  /-- The last line began with a blank. -/
  startedBlank : Bool := false

/-- The text up to a line that begins with a blank or not. In a folded block, a single break
between two lines that begin without a blank is a space. -/
def PartialBlock.joined (b : PartialBlock) (folded startsBlank : Bool) : List Char :=
  if folded && b.lineBreak.head? == some '\n' && !b.startedBlank && !startsBlank then
    b.text ++ (if b.breaks.isEmpty then [' '] else b.breaks)
  else b.text ++ b.lineBreak ++ b.breaks

/-- Reads on over the lines that stand at a column. The first argument bounds their
number. -/
def readBlockLines (folded : Bool) (indent : Nat) :
    Nat → PartialBlock → Cursor → Option (PartialBlock × Cursor)
  | 0, b, c => some (b, c)
  | fuel + 1, b, c =>
    if c.column == indent && !c.ahead.isEmpty then
      let startsBlank := c.seesBlank
      let (line, c) := c.takeWhile (!isBreak ·)
      let text := b.joined folded startsBlank ++ line
      let (lineBreak, c) := c.readBreak
      match readBlockBreaks (some indent) (c.ahead.length + 1) { rest := c } with
      | none => none
      | some after =>
        readBlockLines folded indent fuel
          { text, lineBreak, breaks := after.breaks, startedBlank := startsBlank } after.rest
    else some (b, c)

/-- The text of a block that has been read. -/
def PartialBlock.finish (b : PartialBlock) : Chomping → List Char
  | .strip => b.text
  | .clip => b.text ++ b.lineBreak
  | .keep => b.text ++ b.lineBreak ++ b.breaks

/-- Reads a block from behind its indicator. The column of the collection around it is
negative if there is none. -/
def readBlock (folded : Bool) (around : Int) (c : Cursor) : Option (List Char × Cursor) := do
  let (header, c) ← readBlockHeader c
  let c ← c.endLine?
  let given := header.increment.map fun n => if 0 ≤ around then around.toNat + n else n
  let before ← readBlockBreaks given (c.ahead.length + 1) { rest := c }
  let indent := given.getD (max before.deepest (max (around + 1).toNat 1))
  let (block, c) ←
    readBlockLines folded indent (c.ahead.length + 1) { breaks := before.breaks } before.rest
  return (block.finish header.chomping, c)

end RestContract.Yaml
