import QuantizedGemm.Binary.Arithmetic

/-!
# Output quantization of a problem

A scale and a zero point that spread given accumulators over the output bytes.

## The least step

A range of less than 256 is not stretched: its step is slightly more than one, so that no scale
reaches one. The excess is small, but large enough to survive the rounding to 32 bits.

## The center

The zero point puts the middle of the accumulators at the middle of the bytes. It is rounded to the
nearest integer, and held in the range of a byte where all accumulators lie far from zero.
-/

namespace QuantizedGemm

/-- A scale and a zero point. -/
structure OutputQuantization where
  scale : Binary32
  zeroPoint : UInt8
  deriving DecidableEq

namespace OutputQuantization

/-- The step of ranges that are not stretched. -/
def leastStep : Binary64 := .ofRat (100001 / 100000)

/-- The distance of neighbouring outputs, for accumulators that span `range`. -/
def step (range : Int) : Binary64 :=
  if 256 ≤ range then .ofInt range / .ofInt 255 else leastStep

/-- The output of an accumulator of zero, where `sum` is the sum of the least and the greatest
accumulator, before it is rounded. -/
def center (sum : Int) (step : Binary64) : Binary64 :=
  .ofRat (255 / 2) - .ofRat (1 / 2) * .ofInt sum / step

/-- The least and the greatest of some numbers, zero if there are none. -/
def extremes : List Int → Int × Int
  | [] => (0, 0)
  | x :: xs => (xs.foldl min x, xs.foldl max x)

def ofAccumulators (accumulators : List Int32) : OutputQuantization :=
  let (least, greatest) := extremes (accumulators.map Int32.toInt)
  let d := step (greatest - least)
  let zeroPoint := min (max (center (least + greatest) d).nearestInt 0) 255
  ⟨.ofInt 1 / d.convert, UInt8.ofInt zeroPoint⟩

end OutputQuantization

end QuantizedGemm
