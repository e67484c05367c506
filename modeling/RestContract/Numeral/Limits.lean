-- The limits of whole numbers of 64 bits, with a sign and without.
namespace RestContract

/-- The largest whole number of 64 bits without a sign, 2⁶⁴ − 1. -/
def maxUInt64 : Nat := 18446744073709551615

/-- The largest whole number of 64 bits with a sign, 2⁶³ − 1. -/
def maxInt64 : Int := 9223372036854775807

/-- The smallest whole number of 64 bits with a sign, −2⁶³. -/
def minInt64 : Int := -9223372036854775808

/-- The nearest whole number of 64 bits with a sign. -/
def clampInt64 (n : Int) : Int := max minInt64 (min n maxInt64)

end RestContract
