-- Text in TOML documents: blanks, line breaks, comments, keys and the four kinds of
-- strings. Each reader takes the characters ahead and gives what it read with the
-- characters that are left.
import RestContract.Json.Reader

namespace RestContract.Toml

open Json (Read hexNumber?)

/-! ## Between the words -/

/-- A blank within a line. -/
def isBlank (c : Char) : Bool := c == ' ' || c == '\t'

def skipBlanks (cs : List Char) : List Char := cs.dropWhile isBlank

/-- A character that may stand in a comment or a string as it is. -/
def isPlain (c : Char) : Bool := c == '\t' || (0x20 ≤ c.toNat && c.toNat != 0x7F)

/-- What follows the line break ahead. -/
def readBreak? : List Char → Option (List Char)
  | '\n' :: cs | '\r' :: '\n' :: cs => some cs
  | _ => none

/-- The characters ahead without the comment in front. -/
def skipComment : List Char → List Char
  | '#' :: cs => cs.dropWhile isPlain
  | cs => cs

/-- The characters ahead without blanks, comments and line breaks. The first argument bounds
the number of lines. -/
def skipLines : Nat → List Char → List Char
  | 0, cs => cs
  | fuel + 1, cs =>
    let cs := skipComment (skipBlanks cs)
    match readBreak? cs with
    | some cs => skipLines fuel cs
    | none => cs

/-- What is ahead at the end of a line: nothing, or what follows the line break. -/
def endLine? (cs : List Char) : Option (List Char) :=
  match skipComment (skipBlanks cs) with
  | [] => some []
  | cs => readBreak? cs

/-! ## Strings -/

/-- The character of a code point, which must not be a surrogate. -/
def scalar? (n : Nat) : Option Char :=
  if n < 0xD800 || (0xE000 ≤ n && n < 0x110000) then some (Char.ofNat n) else none

/-- The character that an escape stands for, from behind the backslash. -/
def readEscape : List Char → Read Char
  | 'b' :: cs => some ('\x08', cs)
  | 't' :: cs => some ('\t', cs)
  | 'n' :: cs => some ('\n', cs)
  | 'f' :: cs => some ('\x0c', cs)
  | 'r' :: cs => some ('\r', cs)
  | '"' :: cs => some ('"', cs)
  | '\\' :: cs => some ('\\', cs)
  | 'u' :: a :: b :: c :: d :: cs =>
    ((hexNumber? [a, b, c, d]).bind scalar?).map (·, cs)
  | 'U' :: a :: b :: c :: d :: e :: f :: g :: h :: cs =>
    ((hexNumber? [a, b, c, d, e, f, g, h]).bind scalar?).map (·, cs)
  | _ => none

/-- The characters ahead without line breaks and blanks. The first argument bounds their
number. -/
def skipSpace : Nat → List Char → List Char
  | 0, cs => cs
  | fuel + 1, cs =>
    match readBreak? (skipBlanks cs) with
    | some cs => skipSpace fuel cs
    | none => skipBlanks cs

/-- What follows the blanks and line breaks behind a backslash at the end of a line. -/
def readContinuation? (cs : List Char) : Option (List Char) :=
  (readBreak? (skipBlanks cs)).map fun cs => skipSpace cs.length cs

/-- The characters of a string up to the quote that ends it. With `escapes`, a backslash
escapes. The first argument bounds the number of characters. -/
def readLine (quote : Char) (escapes : Bool) : Nat → List Char → Read (List Char)
  | 0, _ | _ + 1, [] => none
  | fuel + 1, c :: cs =>
    if c == quote then some ([], cs)
    else if escapes && c == '\\' then
      match readEscape cs with
      | some (e, cs) => (readLine quote escapes fuel cs).push e
      | none => none
    else if isPlain c then (readLine quote escapes fuel cs).push c
    else none

/-- The characters of a string over several lines, up to the three quotes that end it; up
to two quotes in front of these belong to the string. -/
def readBlock (quote : Char) (escapes : Bool) : Nat → List Char → Read (List Char)
  | 0, _ | _ + 1, [] => none
  | fuel + 1, c :: cs =>
    if c == quote then
      let run := 1 + (cs.takeWhile (· == quote)).length
      if 3 ≤ run then
        let inside := min (run - 3) 2
        some (List.replicate inside quote, cs.drop (inside + 2))
      else (readBlock quote escapes fuel cs).push c
    else if escapes && c == '\\' then
      match readContinuation? cs with
      | some cs => readBlock quote escapes fuel cs
      | none =>
        match readEscape cs with
        | some (e, cs) => (readBlock quote escapes fuel cs).push e
        | none => none
    else match readBreak? (c :: cs) with
      | some cs => (readBlock quote escapes fuel cs).push '\n'
      | none => if isPlain c then (readBlock quote escapes fuel cs).push c else none

/-- What was read as a string. -/
def asString : Read (List Char) → Read String
  | some (cs, rest) => some (String.ofList cs, rest)
  | none => none

/-- A string within a line, its quote ahead. -/
def readShortString : List Char → Read String
  | '"' :: cs => asString (readLine '"' true (cs.length + 1) cs)
  | '\'' :: cs => asString (readLine '\'' false (cs.length + 1) cs)
  | _ => none

/-- A string of any kind, its quotes ahead. A line break behind three quotes does not
count. -/
def readString : List Char → Read String
  | '"' :: '"' :: '"' :: cs =>
    let cs := (readBreak? cs).getD cs
    asString (readBlock '"' true (cs.length + 1) cs)
  | '\'' :: '\'' :: '\'' :: cs =>
    let cs := (readBreak? cs).getD cs
    asString (readBlock '\'' false (cs.length + 1) cs)
  | cs => readShortString cs

/-! ## Keys -/

/-- A character of a key without quotes. -/
def isKeyChar (c : Char) : Bool := c.isAlphanum || c == '_' || c == '-'

def readKeyPart (cs : List Char) : Read String :=
  match cs.takeWhile isKeyChar with
  | [] => readShortString cs
  | key => some (String.ofList key, cs.dropWhile isKeyChar)

/-- The parts of a key with dots between them, and blanks around each. The first argument
bounds their number. -/
def readKey : Nat → List Char → Read (List String)
  | 0, _ => none
  | fuel + 1, cs =>
    match readKeyPart (skipBlanks cs) with
    | none => none
    | some (part, rest) =>
      match skipBlanks rest with
      | '.' :: rest => (readKey fuel rest).map fun (parts, rest) => (part :: parts, rest)
      | rest => some ([part], rest)

end RestContract.Toml
