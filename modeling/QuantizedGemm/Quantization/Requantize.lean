import QuantizedGemm.Quantization.Params

/-!
# Reference requantization

The functions that say which output byte belongs to an accumulator. A kernel family has to agree
with one of them bit for bit: the floating-point families with `requantizeFp32`, the fixed-point one
with `requantizeRndnu`. `requantizeFp32Magic` computes the first one by another way of rounding.
-/

namespace QuantizedGemm

/-- From accumulator, scale, zero point, least and greatest output to the output. -/
abbrev Requantizer := Int32 → Binary32 → UInt8 → UInt8 → UInt8 → UInt8

/-- The scaled accumulator, clamped to the output range relative to the zero point. -/
def clampedProduct (input : Int32) (scale : Binary32) (zeroPoint min max : UInt8) : Binary32 :=
  (((int32ToBinary input * scale).maxNum (int32ToBinary (lessZeroPoint min zeroPoint))).minNum
    (int32ToBinary (lessZeroPoint max zeroPoint)))

/-- Multiply, clamp, round to the nearest integer with ties to even, and add the zero point. -/
def requantizeFp32 : Requantizer := fun input scale zeroPoint min max ↦
  lowByte ((clampedProduct input scale zeroPoint min max).toInt32Saturating + byteToInt32 zeroPoint)

/-- The same, rounded by adding the magic bias. -/
def requantizeFp32Magic : Requantizer := fun input scale zeroPoint min max ↦
  lowByte ((clampedProduct input scale zeroPoint min max + magicBias).signedBits
    - (magicBiasBits - byteToInt32 zeroPoint))

/-- A product in 64 bits, with half of the last surviving place added, shifted down to 32 bits. -/
def FixedPoint.scaleUpHalf (multiplier : Int32) (rounding : Int64) (shift : Nat) (input : Int32) :
    Int32 :=
  ((input.toInt64 * multiplier.toInt64 + rounding) >>> Int64.ofNat shift).toInt32

/-- Multiply in fixed point, round with halves up, clamp, and add the zero point. The scale lies in
`[2 ^ -32, 256)`. -/
def requantizeRndnu : Requantizer := fun input scale zeroPoint min max ↦
  let s := FixedPoint.ofScale scale
  let output := FixedPoint.scaleUpHalf s.multiplier s.rounding s.shift input
  let clamped :=
    Min.min (Max.max output (lessZeroPoint min zeroPoint)) (lessZeroPoint max zeroPoint)
  lowByte (clamped + byteToInt32 zeroPoint)

/-- The ways of rounding that kernels implement. -/
inductive Strategy where
  /-- In floating point, ties to even. -/
  | fp32
  /-- In fixed point, halves up. -/
  | rndnu
  deriving DecidableEq, Repr

namespace Strategy

def name : Strategy → String
  | fp32 => "fp32"
  | rndnu => "rndnu"

/-- The function that kernels of this strategy agree with. -/
def reference : Strategy → Requantizer
  | fp32 => requantizeFp32
  | rndnu => requantizeRndnu

end Strategy

def Family.strategy : Family → Strategy
  | .rndnu => .rndnu
  | _ => .fp32

end QuantizedGemm
