/-!
# Rounding exact numbers

The nearest integer to a rational number, with ties to the even neighbour, and the floors of its
logarithms. All floating-point arithmetic of the library is exact arithmetic followed by one such
rounding.

Where the number is an integer divided by a power of two, `shiftRightEven` finds its nearest integer
without a fraction in between.
-/

namespace QuantizedGemm

/-- The integer nearest to `q`; halfway between two, the even one. -/
def roundHalfEven (q : Rat) : Int :=
  let n := q.floor
  let r := q - n
  if r < 1 / 2 then n
  else if 1 / 2 < r then n + 1
  else if n % 2 = 0 then n
  else n + 1

/-- `n / 2 ^ k`, rounded to the nearest integer, and halfway between two to the even one. -/
def shiftRightEven (n k : Nat) : Nat :=
  let quotient := n >>> k
  let rest := n - quotient <<< k
  let unit := 1 <<< k
  if 2 * rest < unit then quotient
  else if unit < 2 * rest then quotient + 1
  else if quotient % 2 = 0 then quotient
  else quotient + 1

/-- The greatest `e` with `2 ^ e ≤ q`, for a positive `q`. The bit lengths of numerator and
denominator give it up to one. -/
def floorLog2 (q : Rat) : Int :=
  let e : Int := (q.num.natAbs.log2 : Int) - (q.den.log2 : Int)
  if (2 : Rat) ^ e ≤ q then e else e - 1

/-- The number of decimal digits of `n`, none for zero. -/
def decimalLength (n : Nat) : Nat := if n = 0 then 0 else (Nat.toDigits 10 n).length

/-- The greatest `e` with `10 ^ e ≤ q`, for a positive `q`. -/
def floorLog10 (q : Rat) : Int :=
  if 1 ≤ q then (decimalLength q.floor.toNat : Int) - 1
  else -(decimalLength ((1 / q).ceil.toNat - 1) : Int)

end QuantizedGemm
