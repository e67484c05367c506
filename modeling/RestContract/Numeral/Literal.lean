-- Decimal literals of any size. The digits are taken exactly and rounded once; an
-- exponent far outside of the range settles the number without any arithmetic.
import RestContract.Numeral.Double

namespace RestContract

/-- The number that decimal digits stand for. -/
def Digits.value (digits : List Char) : Nat :=
  digits.foldl (fun n c => 10 * n + (c.toNat - '0'.toNat)) 0

/-- The number nearest to a literal: digits in front of the point, digits behind it, and a
power of ten. -/
def Double.ofLiteral (negative : Bool) (whole places : List Char) (exponent : Int) : Double :=
  let digits := whole ++ places
  let n := Digits.value digits
  let power := exponent - places.length
  if n = 0 then ofRatio negative 0 1
  else if 400 < power then infinity negative
  else if power + digits.length < -400 then ofRatio negative 0 1
  else ofDecimal negative n power

end RestContract
