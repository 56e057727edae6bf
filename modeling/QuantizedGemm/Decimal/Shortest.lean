import QuantizedGemm.Binary.Format

/-!
# Shortest decimals

The decimal with the fewest digits among those that round to a given floating-point number. The
numbers that do form an interval around it, which ends halfway to its neighbours and contains its
ends where the significand is even. On the grid of decimals with `n` digits only the two neighbours
of the number itself need a look; the first grid with a neighbour inside the interval wins.
-/

namespace QuantizedGemm

/-- The number `digits * 10 ^ exponent`. -/
structure Decimal where
  digits : Nat
  exponent : Int
  deriving DecidableEq, Repr

namespace Decimal

/-- Moves zeros at the end of the digits into the exponent. -/
def stripZeros : (steps : Nat) → Decimal → Decimal
  | 0, d => d
  | steps + 1, d =>
    if d.digits ≠ 0 ∧ d.digits % 10 = 0 then stripZeros steps ⟨d.digits / 10, d.exponent + 1⟩ else d

/-- The power of ten of the leading digit. -/
def leadingExponent (d : Decimal) : Int :=
  d.exponent + ((Nat.toDigits 10 d.digits).length : Int) - 1

end Decimal

/-- The numbers that round to a given magnitude. -/
structure RoundingInterval where
  low : Rat
  high : Rat
  closed : Bool

namespace RoundingInterval

def ofMagnitude (f : Format) (m : Nat) : RoundingInterval where
  low := (f.value (m - 1) + f.value m) / 2
  high := (f.value m + f.value (m + 1)) / 2
  closed := m % 2 == 0

/-- Whether `q` lies inside. -/
def contains (i : RoundingInterval) (q : Rat) : Bool :=
  if i.closed then decide (i.low ≤ q) && decide (q ≤ i.high)
  else decide (i.low < q) && decide (q < i.high)

end RoundingInterval

/-- The neighbour of `v` on the grid of multiples of `10 ^ e` that lies in the interval. Of two, the
nearer one; halfway between them, the greater. -/
def neighbourOnGrid (i : RoundingInterval) (v : Rat) (e : Int) : Option Decimal :=
  let unit := (10 : Rat) ^ e
  let d := (v / unit).floor.toNat
  let below := (d : Rat) * unit
  let above := ((d + 1 : Nat) : Rat) * unit
  match i.contains below, i.contains above with
  | true, true => if v - below < above - v then some ⟨d, e⟩ else some ⟨d + 1, e⟩
  | true, false => some ⟨d, e⟩
  | false, true => some ⟨d + 1, e⟩
  | false, false => none

/-- Tries the grids of `10 ^ e`, `10 ^ (e - 1)`, …, at most `steps` of them. -/
def firstOnGrids (i : RoundingInterval) (v : Rat) : (steps : Nat) → (e : Int) → Option Decimal
  | 0, _ => none
  | steps + 1, e =>
    match neighbourOnGrid i v e with
    | some d => some d
    | none => firstOnGrids i v steps (e - 1)

/-- Seventeen digits tell any two numbers of 64 bits apart, and so any two numbers of 32 bits. -/
def maxDigits : Nat := 17

/-- The shortest decimal that rounds to a positive finite magnitude, without zeros at its end. -/
def shortestDecimal (f : Format) (m : Nat) : Decimal :=
  let v := f.value m
  let found := firstOnGrids (.ofMagnitude f m) v maxDigits (floorLog10 v)
  (found.getD ⟨0, 0⟩).stripZeros (maxDigits + 1)

end QuantizedGemm
