import QuantizedGemm.Binary.Format

/-!
# Floating-point arithmetic

Each operation computes the exact result and rounds it once. Sums and products are integers times
powers of two and are computed as such; quotients are rational. Infinities and undefined operands
are told apart first.

## Minima

Two minima are in use. `minNum` prefers a number to an undefined operand; `laneMin` answers its
second operand unless the first one is strictly less, which is what vector units do.

## Conversions

A conversion to an integer rounds to the nearest one, with ties to even. It saturates in one of the
two conversions and answers the least integer in the other one, where the result has no room.
-/

namespace QuantizedGemm.Binary

variable {f g : Format}

/-- The number with the other sign. -/
@[inline] def neg (x : Binary f) : Binary f := ofMagnitude (!x.isNegative) x.magnitude

/-- The product. An infinity times zero is undefined. -/
@[inline] def mul (x y : Binary f) : Binary f :=
  let negative := x.isNegative != y.isNegative
  if x.isNaN || y.isNaN then nan
  else if x.isInfinite || y.isInfinite then
    if x.isZero || y.isZero then nan else infinity negative
  else
    let n := f.significand x.magnitude * f.significand y.magnitude
    ofMagnitude negative (f.nearestScaled n (x.exponent + y.exponent))

/-- The quotient. Zero by zero and infinity by infinity are undefined. -/
def div (x y : Binary f) : Binary f :=
  let negative := x.isNegative != y.isNegative
  if x.isNaN || y.isNaN then nan
  else if x.isInfinite then
    if y.isInfinite then nan else infinity negative
  else if y.isInfinite then ofMagnitude negative 0
  else if y.isZero then
    if x.isZero then nan else infinity negative
  else ofMagnitude negative (f.nearest (f.value x.magnitude / f.value y.magnitude))

/-- The coefficient of a finite word at an exponent that is not above its own. -/
@[inline] def coefficientAt (x : Binary f) (e : Int) : Int :=
  x.coefficient * ((1 <<< (x.exponent - e).toNat : Nat) : Int)

/-- The sum. Infinities of opposite signs have none; a sum of zero is negative only where both
operands are. -/
@[inline] def add (x y : Binary f) : Binary f :=
  if x.isNaN || y.isNaN then nan
  else if x.isInfinite then
    if y.isInfinite && x.isNegative != y.isNegative then nan else x
  else if y.isInfinite then y
  else
    let e := min x.exponent y.exponent
    let n := x.coefficientAt e + y.coefficientAt e
    if n = 0 then ofMagnitude (x.isNegative && y.isNegative) 0 else ofScaled n e

/-- The difference. -/
@[inline] def sub (x y : Binary f) : Binary f := add x y.neg

instance : Neg (Binary f) := ⟨neg⟩
instance : Mul (Binary f) := ⟨mul⟩
instance : Div (Binary f) := ⟨div⟩
instance : Add (Binary f) := ⟨add⟩
instance : Sub (Binary f) := ⟨sub⟩

/-- Whether both are numbers and the first is less. -/
@[inline] def less (x y : Binary f) : Bool := !x.isNaN && !y.isNaN && decide (x.rank < y.rank)

/-- The greater of two numbers; of a number and an undefined operand, the number. -/
@[inline] def maxNum (x y : Binary f) : Binary f :=
  if x.isNaN then y else if x.less y then y else x

/-- The lesser of two numbers; of a number and an undefined operand, the number. -/
@[inline] def minNum (x y : Binary f) : Binary f :=
  if x.isNaN then y else if y.less x then y else x

/-- The first operand where it is less, and the second in every other case. -/
@[inline] def laneMin (x y : Binary f) : Binary f := if x.less y then x else y

/-- The number in another format. -/
@[inline] def convert (x : Binary f) : Binary g :=
  if x.isNaN then nan
  else if x.isInfinite then infinity x.isNegative
  else ofMagnitude x.isNegative (g.nearestScaled (f.significand x.magnitude) x.exponent)

/-- The nearest integer of a finite number without its sign, ties to even. -/
@[inline] def nearestNat (x : Binary f) : Nat :=
  let n := f.significand x.magnitude
  match x.exponent with
  | .ofNat k => n <<< k
  | .negSucc k => shiftRightEven n (k + 1)

/-- The nearest integer of a finite number, ties to even. -/
@[inline] def nearestInt (x : Binary f) : Int :=
  if x.isNegative then -(x.nearestNat : Int) else x.nearestNat

/-- The least and the greatest signed 32-bit integer. -/
def int32Range : Int × Int := (Int32.minValue.toInt, Int32.maxValue.toInt)

/-- The nearest signed 32-bit integer. What lies outside the range gives the end it lies beyond, and
an undefined operand zero. -/
@[inline] def toInt32Saturating (x : Binary f) : Int32 :=
  if x.isNaN then 0
  else if x.isInfinite then
    Int32.ofInt (if x.isNegative then int32Range.1 else int32Range.2)
  else Int32.ofInt (min (max x.nearestInt int32Range.1) int32Range.2)

/-- The nearest signed 32-bit integer. Everything that has none within the range gives the least
one. -/
@[inline] def toInt32Indefinite (x : Binary f) : Int32 :=
  if x.isFinite && decide (int32Range.1 ≤ x.nearestInt) && decide (x.nearestInt ≤ int32Range.2) then
    Int32.ofInt x.nearestInt
  else Int32.ofInt int32Range.1

/-- The bits of a number of 32 bits, read as a signed integer. -/
def signedBits (x : Binary32) : Int32 := (UInt32.ofNat x.bits.toNat).toInt32

end QuantizedGemm.Binary
