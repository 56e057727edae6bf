/-!
# Integer arithmetic for tiles and blocks

Rounding to multiples of a block size, and the least prime that is not below a number. Strides and
offsets are taken from such primes, so that they never line up with a tile by accident.

The plain functions are total and follow the conventions of `Nat` for a zero divisor; the ones
whose names end in a question mark refuse a zero divisor instead.
-/

namespace QuantizedGemm

/-! ## Multiples of a block -/

/-- The number of blocks of `q` that cover `n`. -/
def divideUp (n q : Nat) : Nat := (n + q - 1) / q

/-- The least multiple of `q` that is not below `n`. -/
def roundUp (n q : Nat) : Nat := divideUp n q * q

/-- The greatest multiple of `q` that is not above `n`. -/
def roundDown (n q : Nat) : Nat := n - n % q

/-- `divideUp`, refused for a zero block. -/
def divideUp? (n q : Nat) : Option Nat := if q = 0 then none else some (divideUp n q)

/-- `roundUp`, refused for a zero block. -/
def roundUp? (n q : Nat) : Option Nat := if q = 0 then none else some (roundUp n q)

/-- `roundDown`, refused for a zero block. -/
def roundDown? (n q : Nat) : Option Nat := if q = 0 then none else some (roundDown n q)

/-! ## Primes -/

/-- No `e` with `d ≤ e` and `e * e ≤ n` divides `n`. -/
def noDivisorFrom (n d : Nat) : Bool :=
  if d * d ≤ n then
    if n % d = 0 then false else noDivisorFrom n (d + 1)
  else true
termination_by n + 1 - d
decreasing_by
  have := Nat.le_mul_self d
  omega

/-- Trial division by every candidate up to the square root. -/
def isPrime (n : Nat) : Bool := decide (2 ≤ n) && noDivisorFrom n 2

/-- The first prime among `n`, `n + 2`, `n + 4`, …, looking at no more than `steps` of them. -/
def primeFrom : (steps n : Nat) → Nat
  | 0, n => n
  | steps + 1, n => if isPrime n then n else primeFrom steps (n + 2)

/-- The least prime that is not below `n`. There is a prime below `2 * n`, so looking at `n` odd
candidates is enough. -/
def nextPrime (n : Nat) : Nat :=
  if n ≤ 2 then 2
  else primeFrom n (if n % 2 = 0 then n + 1 else n)

end QuantizedGemm
