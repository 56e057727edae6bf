import QuantizedGemm.Kernel.Microkernel
import QuantizedGemm.Quantization.Stage

/-!
# The portable kernel

One computation for every tile shape and every output stage. The accumulator of a row and a column
starts from the column's bias word. The weights then follow in the order in which they are packed:
by tap, block, step, column and lane. Positions past the end of the reduction are padding and add
nothing.

Accumulators wrap around, as the bias words do that they start from. The zero point is taken off a
weight before it is known whether the lane is padding, and must not overflow either way.
-/

namespace QuantizedGemm.Portable

variable (t : TileShape) (o : TileOperands)

def blocks : Nat := t.paddedDepth o.kc / t.kBlock

/-- Where the weight of a lane lies in the packed tile, behind the bias words. -/
def weightPosition (tap block step j lane : Nat) : Nat :=
  4 * t.nr + ((((tap * blocks t o + block) * t.sr + step) * t.nr + j) * t.kr + lane)

/-- The reduction position that the weight of a lane belongs to. -/
def position (block step j lane : Nat) : Nat :=
  block * t.kBlock + (step * t.kr + lane + j * t.kr) % t.kBlock

/-- What one lane adds to the accumulator of a row. -/
def term (kernelZeroPoint : Int32) (i tap block step j lane : Nat) : Except Fault Int32 := do
  let weight ← readAt o.weights (weightPosition t o tap block step j lane)
  let value ← checkedSub (byteToInt32 weight) kernelZeroPoint
  let k := position t block step j lane
  if k < o.kc then
    let activation ← readAt (← readAt o.rows (tap * t.mr + i)) k
    checkedMul (byteToInt32 activation) value
  else pure 0

def accumulator (kernelZeroPoint : Int32) (i j : Nat) : Except Fault Int32 := do
  let bias ← o.weights.readInt32 (4 * j)
  let sum ← sumEach o.ks fun tap ↦ sumEach (blocks t o) fun block ↦ sumEach t.sr fun step ↦
    sumEach t.kr fun lane ↦ term t o kernelZeroPoint i tap block step j lane
  pure (bias + sum)

/-- The portable computation of a tile. -/
def microkernel (π : Type) [OutputStage π] : Microkernel π where
  isa := .scalar
  shape := t
  compute p o :=
    tabulate t.mr fun i ↦ tabulate t.nr fun j ↦ do
      OutputStage.requantize p (← accumulator t o (OutputStage.kernelZeroPoint p) i j)

end QuantizedGemm.Portable
