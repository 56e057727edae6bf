import QuantizedGemm.Checked
import QuantizedGemm.Quantization.Requantize

/-!
# Output stages of the portable kernels

An output stage turns an accumulator into an output byte, from the parameters of its family alone.

## What may overflow

The integers of a stage have room wherever its parameters are derived from arguments. Parameters can
also be put together by hand, of any numbers, and these may make a plain sum or product overflow. So
a stage answers with a byte or with a fault.
-/

namespace QuantizedGemm

/-- A type of parameters with an output stage. -/
class OutputStage (π : Type) extends ParamsFamily π where
  /-- What is subtracted from every weight. -/
  kernelZeroPoint : π → Int32
  /-- The output byte of an accumulator. -/
  requantize : π → Int32 → Except Fault UInt8

/-- Multiply, clamp as a number, round with the magic bias. -/
def FmagicParams.requantize (p : FmagicParams) (acc : Int32) : Except Fault UInt8 := do
  let scaled := ((int32ToBinary acc * p.scale).maxNum p.minLessZeroPoint).minNum p.maxLessZeroPoint
  pure (lowByte (← checkedSub (scaled + p.magicBias).signedBits p.magicBiasLessZeroPoint))

/-- Multiply, round with the magic bias, clamp the bits. -/
def ImagicParams.requantize (p : ImagicParams) (acc : Int32) : Except Fault UInt8 := do
  let biased := (int32ToBinary acc * p.scale + p.magicBias).signedBits
  let clamped := min (max biased p.magicMin) p.magicMax
  pure (lowByte (← checkedSub clamped p.magicBiasLessZeroPoint))

/-- Multiply, clamp as a number, round to the nearest integer. -/
def LrintfParams.requantize (p : LrintfParams) (acc : Int32) : Except Fault UInt8 := do
  let scaled := ((int32ToBinary acc * p.scale).maxNum p.minLessZeroPoint).minNum p.maxLessZeroPoint
  pure (lowByte (← checkedAdd scaled.toInt32Saturating p.outputZeroPoint))

/-- Multiply in fixed point, round with halves up, clamp. -/
def RndnuParams.requantize (p : RndnuParams) (acc : Int32) : Except Fault UInt8 := do
  let product ← checkedMul64 acc.toInt64 p.multiplier.toInt64
  let rounded ← checkedAdd64 product p.rounding
  let out := (← checkedShiftRight64 rounded p.shift).toInt32
  let clamped := min (max out p.minLessZeroPoint) p.maxLessZeroPoint
  pure (lowByte (← checkedAdd clamped p.outputZeroPoint))

instance : OutputStage FmagicParams where
  kernelZeroPoint p := p.kernelZeroPoint
  requantize p := p.requantize

instance : OutputStage ImagicParams where
  kernelZeroPoint p := p.kernelZeroPoint
  requantize p := p.requantize

instance : OutputStage LrintfParams where
  kernelZeroPoint p := p.kernelZeroPoint
  requantize p := p.requantize

instance : OutputStage RndnuParams where
  kernelZeroPoint p := p.kernelZeroPoint
  requantize p := p.requantize

end QuantizedGemm
