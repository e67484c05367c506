-- Filters of the log: directives between commas. A directive is a level, a target, or a
-- target with a span in brackets and the fields of the span in braces; a level may follow
-- behind an equals sign.
import RestContract.Text.Blank
import RestContract.Text.Letters

namespace RestContract

/-- The names of the levels that a directive may set. -/
def filterLevels : List String := ["off", "error", "warn", "info", "debug", "trace"]

/-- The text is the name of a level in any case, or the number of one. -/
def isFilterLevel (level : List Char) : Bool :=
  let digits := if level.head? == some '+' then level.drop 1 else level
  let isNumber := !digits.isEmpty && digits.all Char.isDigit &&
    digits.foldl (fun n c => n * 10 + (c.toNat - '0'.toNat)) 0 < filterLevels.length
  isNumber || filterLevels.contains (String.ofList (level.map Char.toLower))

/-- Where a directive stands while it is read. -/
inductive DirectivePlace where
  | start
  /-- In a target, or in a level that stands alone. -/
  | target
  /-- In the name of a span. -/
  | span
  /-- In the fields of a span, which are empty so far or not. -/
  | fields (empty : Bool)
  /-- Behind the fields of a span. -/
  | fieldsEnd
  /-- Behind a span. -/
  | spanEnd
  /-- Behind an equals sign, with the level so far. -/
  | level (text : List Char)
  deriving DecidableEq, Repr

namespace DirectivePlace

/-- A character that may begin a target. -/
def beginsTarget (c : Char) : Bool := c == '-' || c == ':' || c == '_' || Text.isWordChar c

/-- The place behind one more character; nothing if the character cannot stand there. -/
def next? : DirectivePlace → Char → Option DirectivePlace
  | start, c =>
    if c == '[' then some span
    else if beginsTarget c then some target
    else none
  | target, c =>
    some (if c == '=' then level [] else if c == '[' then span else target)
  | span, c =>
    some (if c == ']' then spanEnd else if c == '\x7b' then fields true else span)
  | fields empty, c =>
    if c == '\x7d' then (if empty then none else some fieldsEnd) else some (fields false)
  | fieldsEnd, c => if c == ']' then some spanEnd else none
  | spanEnd, c => if c == '=' then some (level []) else none
  | level text, c => some (level (text ++ [c]))

/-- A directive may end here. A level that is absent admits everything; blanks around a
directive with a level make the level unreadable. -/
def isEnd (padded : Bool) : DirectivePlace → Bool
  | target | spanEnd => true
  | level text => !padded && (text.isEmpty || isFilterLevel text)
  | start | span | fields _ | fieldsEnd => false

end DirectivePlace

def isDirective (text : List Char) : Bool :=
  let inner := Text.trimChars text
  (inner.foldlM DirectivePlace.next? .start).any (·.isEnd (inner != text))

/-- The text is a filter: directives between commas, and nothing where none stands. -/
def isLogFilter (text : String) : Bool :=
  ((text.splitOn ",").filter (· != "")).all fun piece => isDirective piece.toList

end RestContract
