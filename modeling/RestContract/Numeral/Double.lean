-- Binary floating point numbers of 64 bits. A number is its bit pattern: one
-- sign bit, eleven bits of exponent and 52 bits of fraction. Arithmetic goes
-- through the exact ratio that a pattern stands for and rounds once.
namespace RestContract

/-- A floating point number of 64 bits. -/
structure Double where
  bits : UInt64
  deriving DecidableEq, Repr, Inhabited

namespace Double

/-! ## The parts of a pattern -/

/-- The weight of the sign bit. -/
def signWeight : Nat := 1 <<< 63

/-- The weight of the lowest bit of the exponent; fractions are below it. -/
def exponentWeight : Nat := 1 <<< 52

/-- The sign bit is set. -/
def negative (d : Double) : Bool := d.bits.toNat / signWeight == 1

/-- The eleven bits of the exponent. -/
def exponentField (d : Double) : Nat := d.bits.toNat / exponentWeight % 2048

/-- The 52 bits of the fraction. -/
def fraction (d : Double) : Nat := d.bits.toNat % exponentWeight

/-- Neither an infinity nor a pattern that is no number. -/
def isFinite (d : Double) : Bool := d.exponentField != 2047

/-- The number is zero, whatever its sign. -/
def isZero (d : Double) : Bool := d.exponentField == 0 && d.fraction == 0

/-- The whole number that, times two to the `power`, is the magnitude. -/
def significand (d : Double) : Nat :=
  if d.exponentField = 0 then d.fraction else d.fraction + exponentWeight

/-- The power of two that the significand is multiplied by. -/
def power (d : Double) : Int := (max d.exponentField 1 : Nat) - 1075

/-- The magnitude as a numerator over a denominator that is a power of two. -/
def ratio (d : Double) : Nat × Nat :=
  (d.significand <<< d.power.toNat, 1 <<< (-d.power).toNat)

/-- The same magnitude with the other sign. -/
def neg (d : Double) : Double := ⟨d.bits ^^^ 0x8000000000000000⟩

/-! ## Rounding -/

/-- The whole number nearest to a ratio; a half goes to the even neighbour. -/
def roundHalfEven (num den : Nat) : Nat :=
  let below := num / den
  let twice := 2 * (num % den)
  if twice < den || (twice == den && below % 2 == 0) then below else below + 1

/-- A ratio divided by two to the `q`. -/
def shifted (num den : Nat) (q : Int) : Nat × Nat :=
  (num <<< (-q).toNat, den <<< q.toNat)

/-- The power of two at which a positive ratio has a significand of 53 bits, or the
smallest power there is. -/
def powerOf (num den : Nat) : Int :=
  let q : Int := num.log2 - den.log2 - 53
  let (n, d) := shifted num den q
  max (if n / d < 2 * exponentWeight then q else q + 1) (-1074)

/-- The pattern of the magnitude nearest to a ratio. Ratios past the largest number
give the infinity. -/
def magnitudeBits (num den : Nat) : Nat :=
  if num = 0 then 0 else
    let q := powerOf num den
    let (n, d) := shifted num den q
    min ((q + 1074).toNat * exponentWeight + roundHalfEven n d) (2047 * exponentWeight)

/-- The number nearest to a ratio with the given sign. -/
def ofRatio (negative : Bool) (num den : Nat) : Double :=
  ⟨.ofNat (magnitudeBits num den + if negative then signWeight else 0)⟩

def tenTo (n : Nat) : Nat := Nat.pow 10 n

/-- The number nearest to `digits · 10 ^ exponent`. -/
def ofDecimal (negative : Bool) (digits : Nat) (exponent : Int) : Double :=
  ofRatio negative (digits * tenTo exponent.toNat) (tenTo (-exponent).toNat)

def infinity (negative : Bool) : Double :=
  ⟨.ofNat (2047 * exponentWeight + if negative then signWeight else 0)⟩

/-- The pattern written for a result that is no number. -/
def nan : Double := ⟨.ofNat (2047 * exponentWeight + exponentWeight / 2)⟩

/-! ## Arithmetic on finite numbers -/

/-- The product, rounded once. -/
def mul (a b : Double) : Double :=
  ofRatio (a.negative != b.negative) (a.ratio.1 * b.ratio.1) (a.ratio.2 * b.ratio.2)

/-- The quotient by a number other than zero, rounded once. -/
def div (a b : Double) : Double :=
  ofRatio (a.negative != b.negative) (a.ratio.1 * b.ratio.2) (a.ratio.2 * b.ratio.1)

/-- The number has no fractional part. -/
def isWhole (d : Double) : Bool := d.isFinite && d.ratio.1 % d.ratio.2 == 0

/-- The number without its fractional part. -/
def truncate (d : Double) : Int :=
  let whole : Int := (d.ratio.1 / d.ratio.2 : Nat)
  if d.negative then -whole else whole

/-- Equality of numbers: the two zeros are one number. -/
def same (a b : Double) : Bool := a == b || (a.isZero && b.isZero)

end Double

end RestContract
