-- JSON text read as a value. Each reader takes the characters ahead and gives what
-- it read with the characters that are left, or nothing if the text is malformed.
-- Containers may nest 127 deep.
import RestContract.Json.Value
import RestContract.Numeral.Limits
import RestContract.Numeral.Literal

namespace RestContract.Json

/-- A reader's answer: what it read and the characters that are left. -/
abbrev Read (α : Type) := Option (α × List Char)

/-- The characters that may stand between tokens. -/
def isSpace (c : Char) : Bool := c == ' ' || c == '\n' || c == '\t' || c == '\r'

/-- The characters ahead without the space in front. -/
def skipSpace (cs : List Char) : List Char := cs.dropWhile isSpace

/-! ## Strings -/

/-- The value of a digit in base sixteen. -/
def hexValue? (c : Char) : Option Nat :=
  if c.isDigit then some (c.toNat - '0'.toNat)
  else if 'a' ≤ c && c ≤ 'f' then some (c.toNat - 'a'.toNat + 10)
  else if 'A' ≤ c && c ≤ 'F' then some (c.toNat - 'A'.toNat + 10)
  else none

def hexNumber? (cs : List Char) : Option Nat :=
  cs.foldlM (fun n c => (hexValue? c).map (16 * n + ·)) 0

/-- The code point of a pair of surrogates. -/
def surrogatePair? (high low : Nat) : Option Char :=
  if 0xD800 ≤ high && high < 0xDC00 && 0xDC00 ≤ low && low < 0xE000 then
    some (Char.ofNat (0x10000 + (high - 0xD800) * 0x400 + (low - 0xDC00)))
  else none

/-- The character that a one-letter escape stands for. -/
def shortEscape? : Char → Option Char
  | '"' => some '"'
  | '\\' => some '\\'
  | '/' => some '/'
  | 'b' => some '\x08'
  | 'f' => some '\x0c'
  | 'n' => some '\n'
  | 'r' => some '\r'
  | 't' => some '\t'
  | _ => none

/-- Puts a character in front of what a reader read. -/
def Read.push (c : Char) : Read (List Char) → Read (List Char)
  | some (cs, rest) => some (c :: cs, rest)
  | none => none

/-- The characters of a string, from behind the opening quote to the closing one. A
surrogate is only accepted as half of a pair. -/
def readStringBody : List Char → Read (List Char)
  | [] => none
  | '"' :: rest => some ([], rest)
  | '\\' :: rest =>
    match rest with
    | 'u' :: a :: b :: c :: d :: rest =>
      match hexNumber? [a, b, c, d] with
      | none => none
      | some unit =>
        if 0xD800 ≤ unit && unit < 0xE000 then
          match rest with
          | '\\' :: 'u' :: e :: f :: g :: h :: rest =>
            match (hexNumber? [e, f, g, h]).bind (surrogatePair? unit) with
            | some c => (readStringBody rest).push c
            | none => none
          | _ => none
        else (readStringBody rest).push (Char.ofNat unit)
    | c :: rest =>
      match shortEscape? c with
      | some e => (readStringBody rest).push e
      | none => none
    | [] => none
  | c :: rest => if c.toNat < 0x20 then none else (readStringBody rest).push c

/-- A string, its opening quote ahead. -/
def readString : List Char → Read String
  | '"' :: rest => (readStringBody rest).map fun (cs, rest) => (String.ofList cs, rest)
  | _ => none

/-! ## Numbers -/

/-- Takes digits into a significand while it stays below 2⁶⁴; the digits from the first
that does not fit are left. -/
def absorb (significand : Nat) : List Char → Nat × List Char
  | [] => (significand, [])
  | c :: cs =>
    let next := 10 * significand + (c.toNat - '0'.toNat)
    if next ≤ maxUInt64 then absorb next cs else (significand, c :: cs)

/-- Ten to a power up to 308, rounded. -/
def powerOfTen (n : Nat) : Double := .ofDecimal false 1 n

/-- Scales a number by a power of ten in steps of at most 308, rounding at each step.
An overflow gives nothing. -/
def scale (fuel : Nat) (d : Double) (exponent : Int) : Option Double :=
  if exponent.natAbs ≤ 308 then
    let scaled := if 0 ≤ exponent then d.mul (powerOfTen exponent.natAbs)
      else d.div (powerOfTen exponent.natAbs)
    if scaled.isFinite then some scaled else none
  else if d.isZero then some d
  else if 0 ≤ exponent then none
  else
    match fuel with
    | 0 => some d
    | fuel + 1 => scale fuel (d.div (powerOfTen 308)) (exponent + 308)

/-- The parts of a number as written. -/
structure NumberParts where
  negative : Bool
  whole : List Char
  places : List Char
  exponent : Int
  /-- There is a point or an exponent. -/
  fractional : Bool

/-- The number of its parts. The significand takes as many digits as fit 64 bits, is
rounded to a floating point number, and then scaled; an integer within 64 bits stays
exact, but `-0` does not count as one. -/
def NumberParts.value? (p : NumberParts) : Option Number :=
  let (whole, spare) := absorb 0 p.whole
  if !p.fractional && spare.isEmpty && !p.negative then some (.int whole)
  else if !p.fractional && spare.isEmpty && whole != 0 && minInt64 ≤ -whole then some (.int (-whole))
  else
    let (significand, unread) := absorb whole p.places
    let exponent := p.exponent + spare.length - (p.places.length - unread.length : Nat)
    (scale 20 (.ofRatio false significand 1) exponent).map fun d =>
      .float (if p.negative then d.neg else d)

/-- The digits in front, and the characters behind them. -/
def readDigits (cs : List Char) : List Char × List Char :=
  (cs.takeWhile Char.isDigit, cs.dropWhile Char.isDigit)

/-- The exponent of a number, if there is one. An exponent past 2³¹ counts as 2³¹. -/
def readExponent (cs : List Char) : Read (Option Int) :=
  match cs with
  | c :: rest =>
    if c == 'e' || c == 'E' then
      let (negative, rest) := match rest with
        | '+' :: rest => (false, rest)
        | '-' :: rest => (true, rest)
        | rest => (false, rest)
      let (digits, rest) := readDigits rest
      if digits.isEmpty then none else
        let n : Int := min (Digits.value digits) 2147483648
        some (some (if negative then -n else n), rest)
    else some (none, cs)
  | [] => some (none, cs)

/-- A number: no zero in front of other digits, and a digit behind a point. -/
def readNumber (cs : List Char) : Read Number :=
  let (negative, cs) := match cs with
    | '-' :: rest => (true, rest)
    | rest => (false, rest)
  let (whole, cs) := readDigits cs
  if whole.isEmpty || (whole.head? == some '0' && whole.length != 1) then none else
    let (places, cs) : Option (List Char) × List Char := match cs with
      | '.' :: rest => (some (readDigits rest).1, (readDigits rest).2)
      | rest => (none, rest)
    if places == some [] then none else
      match readExponent cs with
      | none => none
      | some (exponent, rest) =>
        let parts : NumberParts :=
          { negative, whole, places := places.getD [], exponent := exponent.getD 0
            fractional := places.isSome || exponent.isSome }
        parts.value?.map (·, rest)

/-! ## Values -/

/-- Reads items up to a closing character, with a comma between two of them. The first
argument bounds the number of items. -/
def readItems {α : Type} (item : List Char → Read α) (closing : Char) :
    Nat → List Char → Read (List α)
  | 0, _ => none
  | fuel + 1, cs =>
    match item cs with
    | none => none
    | some (v, rest) =>
      match skipSpace rest with
      | [] => none
      | c :: rest =>
        if c == closing then some ([v], rest)
        else if c == ',' then
          (readItems item closing fuel rest).map fun (vs, rest) => (v :: vs, rest)
        else none

/-- Reads the inside of a container: nothing, or items. -/
def readContainer {α : Type} (item : List Char → Read α) (closing : Char) (cs : List Char) :
    Read (List α) :=
  match skipSpace cs with
  | [] => none
  | c :: rest =>
    if c == closing then some ([], rest) else readItems item closing (rest.length + 1) (c :: rest)

/-- Reads a key, a colon and a value. -/
def readEntry (value : List Char → Read Json) (cs : List Char) : Read (String × Json) :=
  match readString (skipSpace cs) with
  | none => none
  | some (key, rest) =>
    match skipSpace rest with
    | ':' :: rest => (value rest).map fun (v, rest) => ((key, v), rest)
    | _ => none

/-- Reads a value with space in front. The first argument is the number of containers
that may still nest. -/
def readValue (depth : Nat) (cs : List Char) : Read Json :=
  match skipSpace cs with
  | [] => none
  | 'n' :: 'u' :: 'l' :: 'l' :: rest => some (.null, rest)
  | 't' :: 'r' :: 'u' :: 'e' :: rest => some (.bool true, rest)
  | 'f' :: 'a' :: 'l' :: 's' :: 'e' :: rest => some (.bool false, rest)
  | c :: rest =>
    if c == '"' then (readString (c :: rest)).map fun (s, rest) => (.str s, rest)
    else if c == '[' then
      match depth with
      | 0 => none
      | depth + 1 => (readContainer (readValue depth) ']' rest).map fun (vs, rest) => (.arr vs, rest)
    else if c == '\x7b' then
      match depth with
      | 0 => none
      | depth + 1 =>
        (readContainer (readEntry (readValue depth)) '\x7d' rest).map fun (es, rest) => (.obj es, rest)
    else (readNumber (c :: rest)).map fun (n, rest) => (.num n, rest)

def maxDepth : Nat := 127

/-- The value of a text with nothing but space around it. Repeated keys are kept. -/
def read? (text : String) : Option Json :=
  match readValue maxDepth text.toList with
  | some (v, rest) => if (skipSpace rest).isEmpty then some v else none
  | none => none

/-- The value of a text in normal form. -/
def parse? (text : String) : Option Json := (read? text).map normal

end RestContract.Json
