-- A place in a YAML text: what is ahead, and the line and the column it stands at. Five
-- characters break lines; a carriage return and a line feed are one break.
namespace RestContract.Yaml

/-! ## Characters -/

def isBreak (c : Char) : Bool :=
  c == '\n' || c == '\r' || c == '\u0085' || c == '\u2028' || c == '\u2029'

/-- A blank within a line. -/
def isBlank (c : Char) : Bool := c == ' ' || c == '\t'

/-- A character of names: a letter or digit of ASCII, an underscore or a dash. -/
def isNameChar (c : Char) : Bool := c.isAlphanum || c == '_' || c == '-'

/-- A character that a text may hold at all. -/
def isAllowed (c : Char) : Bool :=
  let n := c.toNat
  n == 0x09 || n == 0x0A || n == 0x0D || (0x20 ≤ n && n ≤ 0x7E) || n == 0x85 ||
    (0xA0 ≤ n && n ≤ 0xFFFD) || 0x10000 ≤ n

/-- A blank, a break or the end is ahead. -/
def gapAhead : List Char → Bool
  | [] => true
  | c :: _ => isBlank c || isBreak c

/-- Three dashes or three dots that stand alone are ahead. -/
def documentMarkAhead : List Char → Bool
  | '-' :: '-' :: '-' :: cs | '.' :: '.' :: '.' :: cs => gapAhead cs
  | _ => false

/-! ## Cursors -/

/-- A place in a text. -/
structure Cursor where
  ahead : List Char
  line : Nat := 0
  column : Nat := 0
  /-- The number of characters behind. -/
  index : Nat := 0

namespace Cursor

/-- The character ahead. -/
def head? (c : Cursor) : Option Char := c.ahead.head?

/-- The character ahead is this one. -/
def sees (c : Cursor) (ch : Char) : Bool := c.head? == some ch

/-- The place behind so many characters of the line. -/
def skip (c : Cursor) (n : Nat) : Cursor :=
  { c with ahead := c.ahead.drop n, column := c.column + n, index := c.index + n }

def seesBreak (c : Cursor) : Bool := c.head?.any isBreak

def seesBlank (c : Cursor) : Bool := c.head?.any isBlank

/-- A break or the end is ahead. -/
def seesLineEnd (c : Cursor) : Bool := c.ahead.isEmpty || c.seesBreak

/-- The place is the start of a line, and a document mark is ahead. -/
def seesDocumentMark (c : Cursor) : Bool := c.column == 0 && documentMarkAhead c.ahead

/-- The break ahead as text, and the place behind it. Breaks become line feeds, apart from
the separators of lines and paragraphs. -/
def readBreak (c : Cursor) : List Char × Cursor :=
  let behind (n : Nat) : Cursor :=
    { ahead := c.ahead.drop n, line := c.line + 1, column := 0, index := c.index + n }
  match c.ahead with
  | '\r' :: '\n' :: _ => (['\n'], behind 2)
  | '\u2028' :: _ => (['\u2028'], behind 1)
  | '\u2029' :: _ => (['\u2029'], behind 1)
  | ch :: _ => if isBreak ch then (['\n'], behind 1) else ([], c)
  | [] => ([], c)

/-- The characters of the line ahead that pass a test, and the place behind them. -/
def takeWhile (p : Char → Bool) (c : Cursor) : List Char × Cursor :=
  let taken := c.ahead.takeWhile p
  (taken, c.skip taken.length)

def skipBlanks (c : Cursor) : Cursor := (c.takeWhile isBlank).2

/-- The place behind the comment ahead, if there is one. -/
def skipComment (c : Cursor) : Cursor :=
  if c.sees '#' then (c.takeWhile (!isBreak ·)).2 else c

/-- The place behind blanks, a comment and a break; nothing if something else is ahead. -/
def endLine? (c : Cursor) : Option Cursor :=
  let c := c.skipBlanks.skipComment
  if c.seesLineEnd then some c.readBreak.2 else none

end Cursor

end RestContract.Yaml
