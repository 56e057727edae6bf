import QuantizedGemm.Decimal.Shortest

/-!
# Writing floating-point numbers

A number is written with the digits of its shortest decimal. A `Style` says when it is written with
an exponent and whether a whole number keeps a zero after its point. The sign of zero is kept.
-/

namespace QuantizedGemm

def decimalDigits (n : Nat) : List Char := Nat.toDigits 10 n

/-- How numbers are written. -/
structure Style where
  /-- Whether a number whose leading digit has this power of ten is written without exponent. -/
  positional : Int → Bool
  /-- What follows the last digit of a whole number. -/
  wholeEnding : List Char

namespace Style

/-- Always positional, whole numbers without a point: the style of messages. -/
def plain : Style := ⟨fun _ ↦ true, []⟩

/-- Positional from `0.0001` to below `10 ^ 16`, whole numbers with a zero after their point: the
style of reports on a value's structure. -/
def structural : Style := ⟨fun e ↦ decide (-4 ≤ e) && decide (e < 16), ['.', '0']⟩

/-- The decimal without exponent. -/
def writePositional (s : Style) (d : Decimal) : List Char :=
  let digits := decimalDigits d.digits
  match d.exponent with
  | .ofNat zeros => digits ++ List.replicate zeros '0' ++ s.wholeEnding
  | .negSucc n =>
    let places := n + 1
    if digits.length ≤ places then
      '0' :: '.' :: List.replicate (places - digits.length) '0' ++ digits
    else digits.take (digits.length - places) ++ '.' :: digits.drop (digits.length - places)

/-- The decimal with one digit before its point and an exponent. -/
def writeScientific (d : Decimal) : List Char :=
  let fraction :=
    match decimalDigits d.digits with
    | [] => []
    | [c] => [c]
    | c :: cs => c :: '.' :: cs
  fraction ++ 'e' :: (toString d.leadingExponent).toList

/-- The digits of a magnitude that is a number. -/
def writeMagnitude (s : Style) (f : Format) (m : Nat) : List Char :=
  if m = 0 then '0' :: s.wholeEnding
  else
    let d := shortestDecimal f m
    if s.positional d.leadingExponent then s.writePositional d else writeScientific d

/-- A floating-point number as text. -/
def write {f : Format} (s : Style) (x : Binary f) : String :=
  if x.isNaN then "NaN"
  else
    let digits := if x.isInfinite then "inf".toList else s.writeMagnitude f x.magnitude
    String.ofList (if x.isNegative then '-' :: digits else digits)

end Style

end QuantizedGemm
