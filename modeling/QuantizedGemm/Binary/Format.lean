import QuantizedGemm.Binary.Rounding

/-!
# Binary floating-point numbers

A `Format` has a number of significant bits and a number of exponent bits; a `Binary f` is a word of
that format, made of a sign, a biased exponent and a fraction. Without its sign bit such a word is a
`magnitude`, and magnitudes are ordered as the numbers they stand for:

* `m < infinityBits` is the finite number `f.value m`;
* `m = infinityBits` is infinity;
* a greater `m` is not a number.

`Format.nearest` goes the other way. It rounds a non-negative rational to the nearest magnitude,
with ties to the even one, gradual underflow and overflow to infinity. Since consecutive magnitudes
are consecutive numbers, a significand that rounds up to the next power of two carries into the
exponent by itself. `Format.nearestScaled` is the same for an integer times a power of two, found by
shifting.
-/

namespace QuantizedGemm

/-- A binary interchange format. -/
structure Format where
  /-- Significant bits, the leading one included. -/
  precision : Nat
  /-- Bits of the biased exponent. -/
  exponentBits : Nat
  deriving DecidableEq, Repr

namespace Format

def single : Format := ⟨24, 8⟩

def double : Format := ⟨53, 11⟩

/-- Bits of a word: a sign, the exponent, and the significand without its leading bit. -/
@[inline] def width (f : Format) : Nat := f.precision + f.exponentBits

/-- Bits of the significand that a word stores. -/
@[inline] def fractionBits (f : Format) : Nat := f.precision - 1

/-- The magnitude of infinity: every exponent bit is set. -/
@[inline] def infinityBits (f : Format) : Nat := ((1 <<< f.exponentBits) - 1) <<< f.fractionBits

/-- The magnitude of the word that stands for an undefined result. -/
@[inline] def nanBits (f : Format) : Nat := f.infinityBits + (1 <<< (f.fractionBits - 1))

/-- The exponent of the last place of the least numbers. -/
@[inline] def leastExponent (f : Format) : Int :=
  3 - ((1 <<< (f.exponentBits - 1) : Nat) : Int) - f.precision

/-- The significand of a magnitude as an integer, with the leading bit of a normal number. -/
@[inline] def significand (f : Format) (m : Nat) : Nat :=
  if m >>> f.fractionBits = 0 then m
  else m % (1 <<< f.fractionBits) + (1 <<< f.fractionBits)

/-- The exponent of the last place of a magnitude. Subnormal numbers share it with the least normal
ones. -/
@[inline] def placeExponent (f : Format) (m : Nat) : Int :=
  f.leastExponent + ((m >>> f.fractionBits - 1 : Nat) : Int)

/-- The number that a finite magnitude stands for. -/
def value (f : Format) (m : Nat) : Rat := (f.significand m : Rat) * (2 : Rat) ^ f.placeExponent m

/-- The exponent of the last place that a result of size `q` keeps. -/
def resultExponent (f : Format) (q : Rat) : Int :=
  max (floorLog2 q - (f.fractionBits : Int)) f.leastExponent

/-- The magnitude nearest to a non-negative number. -/
def nearest (f : Format) (q : Rat) : Nat :=
  if q = 0 then 0
  else
    let e := f.resultExponent q
    let significand := (roundHalfEven (q / (2 : Rat) ^ e)).toNat
    min (((e - f.leastExponent).toNat <<< f.fractionBits) + significand) f.infinityBits

/-- The magnitude nearest to `n * 2 ^ e`. -/
@[inline] def nearestScaled (f : Format) (n : Nat) (e : Int) : Nat :=
  if n = 0 then 0
  else
    let place := max ((n.log2 : Int) + e - (f.fractionBits : Int)) f.leastExponent
    let significand :=
      if place ≤ e then n <<< (e - place).toNat else shiftRightEven n (place - e).toNat
    min (((place - f.leastExponent).toNat <<< f.fractionBits) + significand) f.infinityBits

end Format

/-- A word of the format `f`. -/
structure Binary (f : Format) where
  bits : BitVec f.width
  deriving DecidableEq

/-- A number of 32 bits. -/
abbrev Binary32 := Binary Format.single

/-- A number of 64 bits. -/
abbrev Binary64 := Binary Format.double

namespace Binary

variable {f : Format}

/-- The word whose bits are the low ones of `n`. -/
@[inline] def ofBits (n : Nat) : Binary f := ⟨BitVec.ofNat f.width n⟩

@[inline] def signBit (f : Format) : Nat := 1 <<< (f.width - 1)

@[inline] def magnitude (x : Binary f) : Nat := x.bits.toNat % signBit f

@[inline] def isNegative (x : Binary f) : Bool := decide (signBit f ≤ x.bits.toNat)

/-- The word with a given sign and magnitude. -/
@[inline] def ofMagnitude (negative : Bool) (m : Nat) : Binary f :=
  ofBits (if negative then signBit f + m else m)

/-- Whether the word is not a number. -/
@[inline] def isNaN (x : Binary f) : Bool := decide (f.infinityBits < x.magnitude)

@[inline] def isInfinite (x : Binary f) : Bool := decide (x.magnitude = f.infinityBits)

/-- Whether the word is a number and no infinity. -/
@[inline] def isFinite (x : Binary f) : Bool := decide (x.magnitude < f.infinityBits)

/-- Whether the word is a zero of either sign. -/
@[inline] def isZero (x : Binary f) : Bool := decide (x.magnitude = 0)

/-- The undefined result. -/
@[inline] def nan : Binary f := ofMagnitude false f.nanBits

/-- The infinity of a given sign. -/
@[inline] def infinity (negative : Bool) : Binary f := ofMagnitude negative f.infinityBits

/-- The significand of a finite word with its sign. -/
@[inline] def coefficient (x : Binary f) : Int :=
  if x.isNegative then -(f.significand x.magnitude : Int) else f.significand x.magnitude

/-- The exponent of the last place of a finite word. -/
@[inline] def exponent (x : Binary f) : Int := f.placeExponent x.magnitude

/-- The number that a finite word stands for; both zeros stand for zero. -/
def toRat (x : Binary f) : Rat :=
  if x.isNegative then -f.value x.magnitude else f.value x.magnitude

/-- The word nearest to a number. Zero gets a positive sign. -/
def ofRat (q : Rat) : Binary f :=
  if q < 0 then ofMagnitude true (f.nearest (-q)) else ofMagnitude false (f.nearest q)

/-- The word nearest to `n * 2 ^ e`. Zero gets a positive sign. -/
@[inline] def ofScaled (n e : Int) : Binary f :=
  ofMagnitude (decide (n < 0)) (f.nearestScaled n.natAbs e)

/-- The word nearest to an integer. -/
@[inline] def ofInt (n : Int) : Binary f := ofScaled n 0

/-- The position of a number in the order of all numbers, infinities included. Both zeros are at
zero. -/
@[inline] def rank (x : Binary f) : Int :=
  if x.isNegative then -(x.magnitude : Int) else x.magnitude

end Binary

end QuantizedGemm
