-- Scalars in TOML documents besides strings: integers of 64 bits, floating point
-- numbers, and dates and times, which are kept as their text.
import RestContract.Json.Reader

namespace RestContract.Toml

open Json (Read hexNumber?)

/-! ## Digits -/

/-- Digits with underscores between them, without the underscores. The first argument bounds
their number. -/
def readGrouped (isDigit : Char → Bool) : Nat → List Char → Read (List Char)
  | 0, _ => none
  | fuel + 1, cs =>
    match cs.takeWhile isDigit, cs.dropWhile isDigit with
    | [], _ => none
    | digits, '_' :: rest =>
      (readGrouped isDigit fuel rest).map fun (more, rest) => (digits ++ more, rest)
    | digits, rest => some (digits, rest)

/-- Decimal digits with underscores between them. -/
def readDecimals (cs : List Char) : Read (List Char) := readGrouped Char.isDigit (cs.length + 1) cs

/-- A sign, if there is one: whether it is a minus, and what follows. -/
def readSign : List Char → Bool × List Char
  | '-' :: cs => (true, cs)
  | '+' :: cs => (false, cs)
  | cs => (false, cs)

/-! ## Numbers -/

/-- The digits in front of a point: a zero alone, or digits that begin with another one. -/
def readWhole : List Char → Read (List Char)
  | '0' :: cs => some (['0'], cs)
  | cs => readDecimals cs

/-- A point and the digits behind it. -/
def readPlaces : List Char → Read (List Char)
  | '.' :: cs => readDecimals cs
  | _ => none

def readExponent : List Char → Read Int
  | c :: cs =>
    if c == 'e' || c == 'E' then
      let (negative, cs) := readSign cs
      (readDecimals cs).map fun (digits, rest) =>
        let n : Int := Digits.value digits
        (if negative then -n else n, rest)
    else none
  | [] => none

/-- A floating point number past the largest one is no number; below the smallest one, it
is the negative infinity. -/
def inRange? (d : Double) : Option Double := if d == .infinity false then none else some d

/-- A floating point number: digits, and a point or an exponent or both. -/
def readFloat (cs : List Char) : Option (Double × List Char) := do
  let (negative, cs) := readSign cs
  match cs with
  | 'i' :: 'n' :: 'f' :: rest => return (.infinity negative, rest)
  | 'n' :: 'a' :: 'n' :: rest => return (.nan, rest)
  | cs =>
    let (whole, cs) ← readWhole cs
    match readPlaces cs with
    | some (places, cs) =>
      let (exponent, rest) := (readExponent cs).getD (0, cs)
      return (← inRange? (.ofLiteral negative whole places exponent), rest)
    | none =>
      let (exponent, rest) ← readExponent cs
      return (← inRange? (.ofLiteral negative whole [] exponent), rest)

/-- An integer of 64 bits. -/
def inInt64? (n : Int) : Option Int := if minInt64 ≤ n && n ≤ maxInt64 then some n else none

/-- The number of digits in a base. -/
def valueIn (base : Nat) (digits : List Char) : Nat :=
  digits.foldl (fun n c => base * n + ((Json.hexValue? c).getD 0)) 0

/-- The digits of an integer with its base in front. -/
def readBased (base : Nat) (cs : List Char) : Option (Int × List Char) := do
  let isDigit (c : Char) : Bool := (Json.hexValue? c).any (· < base)
  let (digits, rest) ← readGrouped isDigit (cs.length + 1) cs
  return (← inInt64? (valueIn base digits), rest)

/-- An integer: decimal with a sign or without, or in another base without a sign. -/
def readInteger : List Char → Option (Int × List Char)
  | '0' :: 'x' :: cs => readBased 16 cs
  | '0' :: 'o' :: cs => readBased 8 cs
  | '0' :: 'b' :: cs => readBased 2 cs
  | cs => do
    let (negative, cs) := readSign cs
    let (digits, rest) ← readWhole cs
    let n : Int := Digits.value digits
    return (← inInt64? (if negative then -n else n), rest)

/-! ## Dates and times -/

/-- A number of exactly so many digits, within limits. -/
def readFixed (width low high : Nat) (cs : List Char) : Read Nat :=
  let digits := cs.take width
  if digits.length == width && digits.all Char.isDigit then
    let n := Digits.value digits
    if low ≤ n && n ≤ high then some (n, cs.drop width) else none
  else none

def readMark (marks : List Char) : List Char → Read Char
  | c :: cs => if c ∈ marks then some (c, cs) else none
  | [] => none

/-- A number with so many digits, zeros in front. -/
def padded (width n : Nat) : String :=
  let digits := (toString n).toList
  String.ofList (List.replicate (width - digits.length) '0' ++ digits)

/-- The year has a 29th of February. -/
def isLeapYear (year : Nat) : Bool := year % 4 == 0 && (year % 100 != 0 || year % 400 == 0)

def daysIn (year month : Nat) : Nat :=
  if month = 2 then if isLeapYear year then 29 else 28
  else if month ∈ [4, 6, 9, 11] then 30 else 31

/-- A date, as text. -/
def readDate (cs : List Char) : Option (String × List Char) := do
  let (year, cs) ← readFixed 4 0 9999 cs
  let (_, cs) ← readMark ['-'] cs
  let (month, cs) ← readFixed 2 1 12 cs
  let (_, cs) ← readMark ['-'] cs
  let (day, cs) ← readFixed 2 1 31 cs
  if day ≤ daysIn year month then
    return (padded 4 year ++ "-" ++ padded 2 month ++ "-" ++ padded 2 day, cs)
  else none

/-- The fraction of a second as text: nine digits count, and zeros at the end do not. -/
def fractionText (digits : List Char) : String :=
  match ((digits.take 9).reverse.dropWhile (· == '0')).reverse with
  | [] => ""
  | digits => "." ++ String.ofList digits

/-- The fraction of a second, if there is one; a point has to have digits behind it. -/
def readFraction : List Char → Read String
  | '.' :: cs =>
    match cs.takeWhile Char.isDigit with
    | [] => none
    | digits => some (fractionText digits, cs.dropWhile Char.isDigit)
  | cs => some ("", cs)

/-- A time of the day, as text. -/
def readTime (cs : List Char) : Option (String × List Char) := do
  let (hour, cs) ← readFixed 2 0 23 cs
  let (_, cs) ← readMark [':'] cs
  let (minute, cs) ← readFixed 2 0 59 cs
  let (_, cs) ← readMark [':'] cs
  let (second, cs) ← readFixed 2 0 60 cs
  let (fraction, cs) ← readFraction cs
  return (padded 2 hour ++ ":" ++ padded 2 minute ++ ":" ++ padded 2 second ++ fraction, cs)

/-- The offset of a time from the universal one, if there is one. No offset is negative
zero. -/
def readOffset (cs : List Char) : Option (String × List Char) :=
  match cs with
  | 'Z' :: cs | 'z' :: cs => some ("Z", cs)
  | '+' :: _ | '-' :: _ => do
    let (mark, cs) ← readMark ['+', '-'] cs
    let (hours, cs) ← readFixed 2 0 23 cs
    let (_, cs) ← readMark [':'] cs
    let (minutes, cs) ← readFixed 2 0 59 cs
    let sign := if mark == '-' && hours + minutes != 0 then "-" else "+"
    return (sign ++ padded 2 hours ++ ":" ++ padded 2 minutes, cs)
  | cs => some ("", cs)

/-- A date, a time, or a date with a time and perhaps an offset, as text. -/
def readDateTime (cs : List Char) : Read String :=
  match readDate cs with
  | none => readTime cs
  | some (date, cs) =>
    match readMark ['T', 't', ' '] cs with
    | none => some (date, cs)
    | some (_, behind) =>
      match readTime behind with
      | none => some (date, cs)
      | some (time, cs) =>
        (readOffset cs).map fun (offset, cs) => (date ++ "T" ++ time ++ offset, cs)

/-- The key under which a date or a time stands in an object of its own. -/
def dateTimeKey : String := "$__toml_private_datetime"

/-- A number, a date or a time as a value. -/
def readNumber (cs : List Char) : Read Json :=
  match readDateTime cs with
  | some (text, rest) => some (.obj [(dateTimeKey, .str text)], rest)
  | none =>
    match readFloat cs with
    | some (d, rest) => some (.num (.float d), rest)
    | none => (readInteger cs).map fun (n, rest) => (.int n, rest)

end RestContract.Toml
