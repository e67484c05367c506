-- Assignments: what the lines of a file of variables say. A line is a name, an equals
-- sign and a value. In a value, a backslash escapes, single quotes hold text as it is,
-- double quotes hold blanks, and a dollar sign stands in front of the name of another
-- variable.
import RestContract.Text.Letters
import RestContract.Variables.Basic
import RestContract.Variables.Line

namespace RestContract.Variables

/-! ## Values -/

/-- Where in a value a reader stands. -/
inductive ValuePlace where
  | plain
  /-- Behind a backslash. -/
  | escape
  /-- In single quotes. -/
  | single
  /-- In the name of a variable, of which some letters have been read. -/
  | name (letters : List Char)
  /-- In the name of a variable in braces. -/
  | bracedName (letters : List Char)
  /-- Behind the value, where only a comment may follow. -/
  | behind
  deriving DecidableEq, Repr

/-- A value that is being read. -/
structure PartialValue where
  place : ValuePlace := .plain
  /-- In double quotes. -/
  double : Bool := false
  text : List Char := []

/-- What a backslash makes of a character. -/
def escaped? : Char → Option Char
  | 'n' => some '\n'
  | c => if c ∈ ['\\', '\'', '"', '$', ' '] then some c else none

namespace PartialValue

/-- The value with more text. -/
def add (v : PartialValue) (cs : List Char) : PartialValue :=
  { v with place := .plain, text := v.text ++ cs }

/-- The value behind one more character of plain text. -/
def nextPlain (v : PartialValue) (c : Char) : PartialValue :=
  if c == '$' then { v with place := .name [] }
  else if c == '\\' then { v with place := .escape }
  else if c == '"' then { v with double := !v.double }
  else if v.double then v.add [c]
  else if c == '\'' then { v with place := .single }
  else if c == ' ' || c == '\t' then { v with place := .behind }
  else v.add [c]

/-- The value behind one more character, given what the names of variables stand for. -/
def next? (lookup : List Char → List Char) (v : PartialValue) (c : Char) : Option PartialValue :=
  match v.place with
  | .plain => some (v.nextPlain c)
  | .escape => (escaped? c).map fun e => v.add [e]
  | .single => some (if c == '\'' then { v with place := .plain } else { v with text := v.text ++ [c] })
  | .name letters =>
    if Text.isWordChar c then some { v with place := .name (letters ++ [c]) }
    else if c == '\x7b' && letters.isEmpty then some { v with place := .bracedName [] }
    else if c == '$' then some { v.add (lookup letters) with place := .name [] }
    else some (v.add (lookup letters ++ [c]))
  | .bracedName letters =>
    if c == '\x7d' then some (v.add (lookup letters))
    else some { v with place := .bracedName (letters ++ [c]) }
  | .behind => if c == ' ' || c == '\t' then some v else none

/-- The text of a value that has been read to its end; nothing if quotes or braces are
still open. -/
def finish? (lookup : List Char → List Char) (v : PartialValue) : Option (List Char) :=
  if v.double then none
  else match v.place with
    | .single | .bracedName _ => none
    | .name letters => some (v.text ++ lookup letters)
    | .plain | .escape | .behind => some v.text

/-- Reads on to the end, or to the comment behind the value. -/
def read? (lookup : List Char → List Char) : PartialValue → List Char → Option (List Char)
  | v, [] => v.finish? lookup
  | v, c :: cs =>
    if v.place == .behind && c == '#' then v.finish? lookup
    else (v.next? lookup c).bind fun v => v.read? lookup cs

end PartialValue

/-! ## Lines -/

/-- What is known while a file is read: the variables of the environment, and what the
file has said so far. -/
structure Scope where
  environment : Variables
  assigned : Variables := []

/-- What a name stands for in a value: the environment comes first, and what is not known
stands for nothing. -/
def Scope.lookup (s : Scope) (name : List Char) : List Char :=
  let name := String.ofList name
  ((Entries.get? s.environment name <|> Entries.get? s.assigned name).getD "").toList

def Scope.assign (s : Scope) (name value : String) : Scope :=
  { environment := add s.environment name value, assigned := Entries.put s.assigned name value }

def isNameChar (c : Char) : Bool := c.isAlphanum || c == '_' || c == '.'

/-- The name in front, and what follows it and the blanks behind. -/
def readName? (cs : List Char) : Option (List Char × List Char) :=
  match cs with
  | c :: _ =>
    if c.isAlpha || c == '_' then
      some (cs.takeWhile isNameChar, (cs.dropWhile isNameChar).dropWhile Text.isBlank)
    else none
  | [] => none

/-- What follows the equals sign in front. -/
def readEquals? : List Char → Option (List Char)
  | '=' :: cs => some cs
  | _ => none

/-- The name and what follows the equals sign. The word `export` may stand in front of the
name, unless it is the name. -/
def readTarget? (cs : List Char) : Option (List Char × List Char) := do
  let (name, rest) ← readName? cs
  match readEquals? rest with
  | some rest => return (name, rest)
  | none =>
    if name == "export".toList then
      let (name, rest) ← readName? rest
      return (name, ← readEquals? rest)
    else none

/-- Nothing but a comment. -/
def saysNothing (cs : List Char) : Bool := cs.isEmpty || cs.head? == some '#'

/-- The assignment of a line; a line without any leaves `none`. -/
def readLine (scope : Scope) (line : List Char) : Except Unit (Option (String × String)) :=
  let line := Text.trimChars line
  if saysNothing line then .ok none
  else match readTarget? line with
    | none => .error ()
    | some (name, rest) =>
      let rest := rest.dropWhile Text.isBlank
      let name := String.ofList name
      if saysNothing rest then .ok (some (name, ""))
      else match PartialValue.read? scope.lookup {} rest with
        | some value => .ok (some (name, String.ofList value))
        | none => .error ()

/-- The environment after the lines of a file, and whether all lines could be read. What
stands in front of a faulty line counts. -/
def loadLines : Scope → List (Option (List Char)) → Variables × Bool
  | scope, [] => (scope.environment, true)
  | scope, none :: _ => (scope.environment, false)
  | scope, some line :: rest =>
    match readLine scope line with
    | .error () => (scope.environment, false)
    | .ok none => loadLines scope rest
    | .ok (some (name, value)) => loadLines (scope.assign name value) rest

/-- The environment after a file of variables, and whether all of it could be read. -/
def load (environment : Variables) (content : ByteArray) : Variables × Bool :=
  loadLines { environment } (logicalLines content)

end RestContract.Variables
