-- JSON text: the compact form without any space, and the indented form with two
-- spaces a level.
import RestContract.Json.Value
import RestContract.Text.Quoted

namespace RestContract

/-- A number as JSON text. There is no text for infinities, so `null` stands in. -/
def Number.text : Number → String
  | .int n => toString n
  | .float d => if d.isFinite then d.text else "null"

namespace Json

/-! ## Strings -/

/-- A character inside a JSON string. Only the quote, the backslash and controls are
escaped. -/
def escapeChar (c : Char) : List Char :=
  match c with
  | '"' => ['\\', '"']
  | '\\' => ['\\', '\\']
  | '\x08' => ['\\', 'b']
  | '\x0c' => ['\\', 'f']
  | '\n' => ['\\', 'n']
  | '\r' => ['\\', 'r']
  | '\t' => ['\\', 't']
  | c =>
    if c.toNat < 0x20 then
      ['\\', 'u', '0', '0'] ++ (if c.toNat < 0x10 then ['0'] else []) ++ Text.hexDigits c.toNat
    else [c]

/-- A text as a JSON string. -/
def quote (s : String) : String :=
  String.ofList (['"'] ++ s.toList.flatMap escapeChar ++ ['"'])

/-! ## Compact text -/

mutual

/-- The value without any space. -/
def compact : Json → String
  | .null => "null"
  | .bool true => "true"
  | .bool false => "false"
  | .num n => n.text
  | .str s => quote s
  | .arr items => "[" ++ String.intercalate "," (compactItems items) ++ "]"
  | .obj entries => "\x7b" ++ String.intercalate "," (compactEntries entries) ++ "\x7d"

def compactItems : List Json → List String
  | [] => []
  | v :: vs => compact v :: compactItems vs

/-- Each entry as a key, a colon and a value. -/
def compactEntries : List (String × Json) → List String
  | [] => []
  | (k, v) :: es => (quote k ++ ":" ++ compact v) :: compactEntries es

end

/-! ## Indented text -/

/-- A line break and the spaces in front of a line at a level. -/
def lineBreak (level : Nat) : String := "\n" ++ String.ofList (List.replicate (2 * level) ' ')

/-- A container with a line for each part, or without any line if it is empty. -/
def block (opening closing : String) (level : Nat) (parts : List String) : String :=
  if parts.isEmpty then opening ++ closing else
    opening ++ lineBreak (level + 1) ++ String.intercalate ("," ++ lineBreak (level + 1)) parts ++
      lineBreak level ++ closing

mutual

/-- The value with a line for each item and entry, starting at a level. -/
def indented (level : Nat) : Json → String
  | .arr items => block "[" "]" level (indentedItems (level + 1) items)
  | .obj entries => block "\x7b" "\x7d" level (indentedEntries (level + 1) entries)
  | v => compact v

def indentedItems (level : Nat) : List Json → List String
  | [] => []
  | v :: vs => indented level v :: indentedItems level vs

def indentedEntries (level : Nat) : List (String × Json) → List String
  | [] => []
  | (k, v) :: es => (quote k ++ ": " ++ indented level v) :: indentedEntries level es

end

/-- The value over several lines. -/
def pretty (v : Json) : String := indented 0 v

end Json

end RestContract
