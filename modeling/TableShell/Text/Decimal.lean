/-!
# Decimal numerals

Numerals as they may be typed (with a plus sign and leading zeros) and as they are
written (with neither). `Nat.repr` writes; `ofChars?` reads.
-/

namespace TableShell.Decimal

/-- The largest number that is read: the largest signed number of 64 bits. -/
def largest : Nat := 9223372036854775807

/-- The digits of a numeral without its optional plus sign. -/
def unsigned : List Char → List Char
  | '+' :: digits => digits
  | digits => digits

/-- The number that a numeral denotes: an optional plus sign and at least one ASCII digit,
with a value of at most `largest`. -/
def ofChars? (numeral : List Char) : Option Nat :=
  let digits := unsigned numeral
  let value := Nat.ofDigitChars 10 digits 0
  if digits ≠ [] ∧ digits.all Char.isDigit ∧ value ≤ largest then some value else none

end TableShell.Decimal
