import QuantizedGemm.Binary.Arithmetic
import QuantizedGemm.Error

/-!
# Quantization arguments

What the parameters of every kernel family are derived from. The activation zero point is not among
them: it is folded into the packed bias.
-/

namespace QuantizedGemm

/-- Arguments shared by all parameter families. -/
structure QuantizationArgs where
  kernelZeroPoint : UInt8
  scale : Binary32
  outputZeroPoint : UInt8
  outputMin : UInt8
  outputMax : UInt8
  deriving DecidableEq

namespace QuantizationArgs

/-- The least scale that any family takes, `2 ^ -32`. -/
def minScale : Binary32 := .ofRat ((2 : Rat) ^ (-32 : Int))

/-- The scales of the floating-point families lie below this one. -/
def maxFloatScale : Binary32 := .ofInt 256

/-- The scales of the fixed-point family lie below this one. -/
def maxFixedScale : Binary32 := .ofInt 1

/-- A finite positive scale within `[minScale, maxScale)` and a range that is not empty, refused in
this order. -/
def validate (a : QuantizationArgs) (maxScale : Binary32) : Except Error Unit :=
  if !a.scale.isFinite || a.scale.isNegative || a.scale.isZero then
    .error (.quantization (.invalidScale a.scale))
  else if a.scale.less minScale || !a.scale.less maxScale then
    .error (.quantization (.scaleOutOfRange a.scale minScale maxScale))
  else if a.outputMin > a.outputMax then
    .error (.quantization (.invalidRange a.outputMin a.outputMax))
  else .ok ()

end QuantizationArgs

/-- A byte as a signed 32-bit integer. -/
def byteToInt32 (b : UInt8) : Int32 := Int32.ofNat b.toNat

/-- The low byte of a signed 32-bit integer. -/
def lowByte (x : Int32) : UInt8 := x.toUInt32.toUInt8

/-- A bound of the output range, relative to the output zero point. -/
def lessZeroPoint (bound zeroPoint : UInt8) : Int32 := byteToInt32 bound - byteToInt32 zeroPoint

/-- A signed 32-bit integer as a floating-point number. -/
def int32ToBinary (x : Int32) : Binary32 := .ofInt x.toInt

end QuantizedGemm
