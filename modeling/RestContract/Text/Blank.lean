-- Blank characters: the code points of the Unicode property White_Space, and
-- texts without the blanks at their two ends.
namespace RestContract.Text

/-- The ranges of the property White_Space, both ends included. -/
def blankRanges : List (Nat × Nat) := [
  (0x09, 0x0D), (0x20, 0x20), (0x85, 0x85), (0xA0, 0xA0), (0x1680, 0x1680),
  (0x2000, 0x200A), (0x2028, 0x2029), (0x202F, 0x202F), (0x205F, 0x205F), (0x3000, 0x3000)]

/-- A character of the property White_Space. -/
def isBlank (c : Char) : Bool :=
  blankRanges.any fun (first, last) => first ≤ c.toNat && c.toNat ≤ last

/-- The characters without the blanks in front and behind. -/
def trimChars (cs : List Char) : List Char :=
  ((cs.dropWhile isBlank).reverse.dropWhile isBlank).reverse

/-- The text without the blanks in front and behind. -/
def trim (s : String) : String := String.ofList (trimChars s.toList)

end RestContract.Text
