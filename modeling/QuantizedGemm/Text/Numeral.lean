/-!
# Decimal numerals

An unsigned numeral is an optional plus sign and one or more ASCII digits, leading zeros allowed,
whose value lies below a bound.
-/

namespace QuantizedGemm.Text

def isDigit (c : Char) : Bool := decide ('0' ≤ c) && decide (c ≤ '9')

def digitsValue (cs : List Char) : Nat := cs.foldl (fun v c ↦ 10 * v + (c.toNat - '0'.toNat)) 0

/-- What is left after an optional plus sign. -/
def dropPlus : List Char → List Char
  | '+' :: cs => cs
  | cs => cs

/-- Reads a numeral whose value is below `bound`. -/
def numeral? (bound : Nat) (cs : List Char) : Option Nat :=
  let digits := dropPlus cs
  if !digits.isEmpty && digits.all isDigit && decide (digitsValue digits < bound) then
    some (digitsValue digits)
  else none

end QuantizedGemm.Text
