-- The shortest decimal of a floating point number: the fewest digits that read
-- back as the same number, and of those the nearest.
import RestContract.Numeral.Double

namespace RestContract

/-- A positive decimal `0.d₁d₂… · 10 ^ point`, with its digits in order. -/
structure Decimal where
  digits : List Char
  point : Int
  deriving DecidableEq, Repr

namespace Decimal

/-! ## Decimals as text -/

def zeros (n : Int) : List Char := List.replicate n.toNat '0'

/-- The decimal without an exponent, and without a point if it is whole. -/
def positional (x : Decimal) : List Char :=
  if x.point ≤ 0 then ['0', '.'] ++ zeros (-x.point) ++ x.digits
  else if x.point ≥ x.digits.length then x.digits ++ zeros (x.point - x.digits.length)
  else x.digits.take x.point.toNat ++ ['.'] ++ x.digits.drop x.point.toNat

/-- The decimal with one digit in front of the point and a signed exponent. -/
def scientific (x : Decimal) : List Char :=
  let mantissa := match x.digits with
    | [] => ['0']
    | [d] => [d]
    | d :: ds => d :: '.' :: ds
  let e := x.point - 1
  mantissa ++ ['e', if e < 0 then '-' else '+'] ++ Nat.toDigits 10 e.natAbs

end Decimal

namespace Double

/-- The ratios that round to a number lie between these two numerators, over the
common denominator. The value itself is the middle one. -/
structure Interval where
  low : Nat
  mid : Nat
  high : Nat
  den : Nat
  /-- Both ends round to the number too. -/
  closed : Bool

/-- The interval of a finite number other than zero. Below a power of two the lower
half is only half as wide. -/
def interval (d : Double) : Interval :=
  let narrow := d.fraction == 0 && d.exponentField > 1
  let scale := 1 <<< d.power.toNat
  { low := (4 * d.significand - if narrow then 1 else 2) * scale
    mid := 4 * d.significand * scale
    high := (4 * d.significand + 2) * scale
    den := 4 <<< (-d.power).toNat
    closed := d.significand % 2 == 0 }

/-- The ratio `num / den` lies in the interval. -/
def Interval.holds (i : Interval) (num den : Nat) : Bool :=
  let x := num * i.den
  if i.closed then i.low * den ≤ x && x ≤ i.high * den
  else i.low * den < x && x < i.high * den

/-- The nearest multiple of `10 ^ e` that lies in the interval, counted in that unit.
Only the two neighbours of the value are candidates; on a tie the even one wins. -/
def Interval.pick? (i : Interval) (e : Int) : Option Nat :=
  let unit := tenTo e.toNat
  let parts := tenTo (-e).toNat
  let below := i.mid * parts / (i.den * unit)
  let fits := fun n => n != 0 && i.holds (n * unit) parts
  let gap := 2 * (i.mid * parts - below * (i.den * unit))
  let nearer := if gap < i.den * unit || (gap == i.den * unit && below % 2 == 0)
    then below else below + 1
  let farther := if nearer == below then below + 1 else below
  if fits nearer then some nearer else if fits farther then some farther else none

/-- The first grid with a hit, from coarse to fine. -/
def Interval.search (i : Interval) (e : Int) : Nat → Nat × Int
  | 0 => (i.mid / i.den, 0)
  | fuel + 1 =>
    match i.pick? e with
    | some n => (n, e)
    | none => i.search (e - 1) fuel

/-- The digits of a number without its trailing zeros, and the power of ten at which
its first digit would stand behind the point. -/
def decimalOf (n : Nat) (e : Int) : Decimal :=
  let ds := Nat.toDigits 10 n
  { digits := (ds.reverse.dropWhile (· == '0')).reverse
    point := ds.length + e }

/-- The number of decimal digits in front of the point of a ratio, at most one too many. -/
def wholeDigits (num den : Nat) : Int :=
  if num / den = 0 then 1 - (Nat.toDigits 10 (den / (max num 1))).length
  else (Nat.toDigits 10 (num / den)).length

/-- The shortest decimal of the magnitude of a finite number other than zero. -/
def shortest (d : Double) : Decimal :=
  let i := d.interval
  let (n, e) := i.search (wholeDigits i.mid i.den) 30
  decimalOf n e

/-! ## Numbers as text -/

/-- The sign of a number as text. -/
def signChars (d : Double) : List Char := if d.negative then ['-'] else []

/-- A finite number without an exponent; a whole number has no point. -/
def plain (d : Double) : String :=
  String.ofList (d.signChars ++ if d.isZero then ['0'] else d.shortest.positional)

/-- A finite number as data formats write it: positional with at least one place when
the first digit stands at 10⁻⁵ to 10¹⁵, otherwise with an exponent. -/
def text (d : Double) : String :=
  if d.isZero then String.ofList (d.signChars ++ ['0', '.', '0']) else
    let x := d.shortest
    let body :=
      if -4 ≤ x.point && x.point ≤ 16 then
        x.positional ++ if x.point ≥ x.digits.length then ['.', '0'] else []
      else x.scientific
    String.ofList (d.signChars ++ body)

end Double

end RestContract
