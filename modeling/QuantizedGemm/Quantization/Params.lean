import QuantizedGemm.Quantization.Args

/-!
# Parameter families

Each kernel family computes with parameters of its own shape, derived once from the arguments. A
kernel that is handed the parameters of another family refuses them.

## The magic bias

The *magic bias* is `1.5 * 2 ^ 23`. The last place of a sum with it is one, so adding it to a number
of moderate size rounds that number to an integer, which can be read off the low bits of the sum.
Two families round this way and precompute the bias, less the zero point or with the bounds added to
it.

## Scales

The floating-point families take scales from `2 ^ -32` to below `2 ^ 8`. The fixed-point family
stops below one, where narrowing to 32 bits still keeps every product.
-/

namespace QuantizedGemm

/-- The bits of the magic bias. -/
def magicBiasBits : Int32 := 0x4B400000

/-- The magic bias, `12582912`. -/
def magicBias : Binary32 := .ofInt 12582912

inductive Family where
  /-- Clamp as a number, then round with the magic bias. -/
  | fmagic
  /-- Round with the magic bias, then clamp the bits. -/
  | imagic
  /-- Clamp as a number, then round to the nearest integer. -/
  | lrintf
  /-- The vector kernels. -/
  | simd
  /-- Fixed-point multiplication, with halves rounded up. -/
  | rndnu
  deriving DecidableEq, Repr

namespace Family

def all : List Family := [fmagic, imagic, lrintf, simd, rndnu]

/-- The name of a family in messages. -/
def tag : Family → String
  | fmagic => "fp32_scalar_fmagic"
  | imagic => "fp32_scalar_imagic"
  | lrintf => "fp32_scalar_lrintf"
  | simd => "fp32_simd"
  | rndnu => "rndnu_scalar"

/-- The family with a given name. -/
def ofTag? (t : String) : Option Family := all.find? fun f ↦ f.tag == t

end Family

structure FmagicParams where
  kernelZeroPoint : Int32
  scale : Binary32
  minLessZeroPoint : Binary32
  maxLessZeroPoint : Binary32
  magicBias : Binary32
  magicBiasLessZeroPoint : Int32
  deriving DecidableEq

structure ImagicParams where
  kernelZeroPoint : Int32
  scale : Binary32
  magicBias : Binary32
  magicMin : Int32
  magicMax : Int32
  magicBiasLessZeroPoint : Int32
  deriving DecidableEq

structure LrintfParams where
  kernelZeroPoint : Int32
  scale : Binary32
  minLessZeroPoint : Binary32
  maxLessZeroPoint : Binary32
  outputZeroPoint : Int32
  deriving DecidableEq

/-- Parameters of the family `simd`, in the widths that vector lanes have. -/
structure SimdParams where
  kernelZeroPoint : Int16
  scale : Binary32
  maxLessZeroPoint : Binary32
  outputZeroPoint : Int16
  outputMin : UInt8
  outputMax : UInt8
  deriving DecidableEq

structure RndnuParams where
  kernelZeroPoint : Int32
  multiplier : Int32
  rounding : Int64
  shift : Nat
  minLessZeroPoint : Int32
  maxLessZeroPoint : Int32
  outputZeroPoint : Int32
  deriving DecidableEq

/-- Parameters of some family. -/
inductive Params where
  | fmagic (p : FmagicParams)
  | imagic (p : ImagicParams)
  | lrintf (p : LrintfParams)
  | simd (p : SimdParams)
  | rndnu (p : RndnuParams)
  deriving DecidableEq

def Params.family : Params → Family
  | fmagic _ => .fmagic
  | imagic _ => .imagic
  | lrintf _ => .lrintf
  | simd _ => .simd
  | rndnu _ => .rndnu

/-- A type of parameters that belongs to one family. -/
class ParamsFamily (π : Type) where
  family : Family
  /-- The parameters, if they are of this family. -/
  extract : Params → Option π

instance : ParamsFamily FmagicParams where
  family := .fmagic
  extract
    | .fmagic p => some p
    | _ => none

instance : ParamsFamily ImagicParams where
  family := .imagic
  extract
    | .imagic p => some p
    | _ => none

instance : ParamsFamily LrintfParams where
  family := .lrintf
  extract
    | .lrintf p => some p
    | _ => none

instance : ParamsFamily SimdParams where
  family := .simd
  extract
    | .simd p => some p
    | _ => none

instance : ParamsFamily RndnuParams where
  family := .rndnu
  extract
    | .rndnu p => some p
    | _ => none

/-- The refusal of parameters of a wrong family. -/
def familyMismatch (expected found : Family) : Error :=
  .kernel (.paramsMismatch expected.tag found.tag)

/-- The parameters of one family, refused if they are of another. -/
def Params.get (π : Type) [ParamsFamily π] (p : Params) : Except Error π :=
  match ParamsFamily.extract p with
  | some q => .ok q
  | none => .error (familyMismatch (ParamsFamily.family π) p.family)

def Params.requireFamily (p : Params) (expected : Family) : Except Error Params :=
  if p.family = expected then .ok p else .error (familyMismatch expected p.family)

/-! ## Derivation -/

namespace QuantizationArgs

variable (a : QuantizationArgs)

/-- The least output, relative to the output zero point. -/
def minLessZeroPoint : Int32 := lessZeroPoint a.outputMin a.outputZeroPoint

/-- The greatest output, relative to the output zero point. -/
def maxLessZeroPoint : Int32 := lessZeroPoint a.outputMax a.outputZeroPoint

/-- The bits of the magic bias, relative to the output zero point. -/
def magicBiasLessZeroPoint : Int32 := magicBiasBits - byteToInt32 a.outputZeroPoint

def fmagicParams : FmagicParams where
  kernelZeroPoint := byteToInt32 a.kernelZeroPoint
  scale := a.scale
  minLessZeroPoint := int32ToBinary a.minLessZeroPoint
  maxLessZeroPoint := int32ToBinary a.maxLessZeroPoint
  magicBias := magicBias
  magicBiasLessZeroPoint := a.magicBiasLessZeroPoint

def imagicParams : ImagicParams where
  kernelZeroPoint := byteToInt32 a.kernelZeroPoint
  scale := a.scale
  magicBias := magicBias
  magicMin := (magicBias + int32ToBinary a.minLessZeroPoint).signedBits
  magicMax := (magicBias + int32ToBinary a.maxLessZeroPoint).signedBits
  magicBiasLessZeroPoint := a.magicBiasLessZeroPoint

def lrintfParams : LrintfParams where
  kernelZeroPoint := byteToInt32 a.kernelZeroPoint
  scale := a.scale
  minLessZeroPoint := int32ToBinary a.minLessZeroPoint
  maxLessZeroPoint := int32ToBinary a.maxLessZeroPoint
  outputZeroPoint := byteToInt32 a.outputZeroPoint

def simdParams : SimdParams where
  kernelZeroPoint := Int16.ofNat a.kernelZeroPoint.toNat
  scale := a.scale
  maxLessZeroPoint := int32ToBinary a.maxLessZeroPoint
  outputZeroPoint := Int16.ofNat a.outputZeroPoint.toNat
  outputMin := a.outputMin
  outputMax := a.outputMax

end QuantizationArgs

/-- A scale as `multiplier * 2 ^ -shift`, with a multiplier of 24 bits. -/
structure FixedPoint where
  multiplier : Int32
  shift : Nat
  deriving DecidableEq

namespace FixedPoint

/-- Takes a positive normal number apart. -/
def ofScale (scale : Binary32) : FixedPoint where
  multiplier := Int32.ofNat (scale.bits.toNat % (1 <<< 23) + (1 <<< 23))
  shift := 127 + 23 - scale.bits.toNat >>> 23

/-- Half of the last place that survives the shift. -/
def rounding (s : FixedPoint) : Int64 := Int64.ofNat (1 <<< (s.shift - 1))

end FixedPoint

def QuantizationArgs.rndnuParams (a : QuantizationArgs) : RndnuParams :=
  let s := FixedPoint.ofScale a.scale
  { kernelZeroPoint := byteToInt32 a.kernelZeroPoint
    multiplier := s.multiplier
    rounding := s.rounding
    shift := s.shift
    minLessZeroPoint := a.minLessZeroPoint
    maxLessZeroPoint := a.maxLessZeroPoint
    outputZeroPoint := byteToInt32 a.outputZeroPoint }

/-- The scales of a family lie below this one. -/
def Family.maxScale : Family → Binary32
  | .rndnu => QuantizationArgs.maxFixedScale
  | _ => QuantizationArgs.maxFloatScale

/-- Derives the parameters of a family from arguments that it accepts. -/
def Family.derive (f : Family) (a : QuantizationArgs) : Except Error Params := do
  a.validate f.maxScale
  match f with
  | .fmagic => pure (.fmagic a.fmagicParams)
  | .imagic => pure (.imagic a.imagicParams)
  | .lrintf => pure (.lrintf a.lrintfParams)
  | .simd => pure (.simd a.simdParams)
  | .rndnu => pure (.rndnu a.rndnuParams)

end QuantizedGemm
