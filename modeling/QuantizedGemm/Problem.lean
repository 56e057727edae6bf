import QuantizedGemm.Indirection
import QuantizedGemm.Random.Draw
import QuantizedGemm.TestCase

/-!
# Problems

A problem holds the operands of one iteration of a test case, and the accumulators that a correct
kernel arrives at. These are computed from the plain weights, without packing, tiles or strides.

## Rows that are not asked for

The input arena is filled before the first row and behind the last one. Rows that belong to the tile
but not to the problem point to the fill behind the last row, so that a kernel that mixes them up
shows.

## Drawing

Activations and weights are drawn again while all their bytes are the same, a number of times that
the caller bounds. A source that never varies thus ends the drawing with a fault of its own, which
is not to be mixed up with packing that overflows.
-/

namespace QuantizedGemm

/-- The byte that fills gaps, the spare row and fresh outputs. -/
def fillByte : UInt8 := 0xA5

/-- The operands of one iteration, and the accumulators row by row. -/
structure Problem where
  shape : TileShape
  m : Nat
  n : Nat
  k : Nat
  ks : Nat
  cmStride : Nat
  cnStride : Nat
  view : IndirectView
  weights : Bytes
  bias : Array Int32
  packed : Bytes
  accumulators : Array Int32

namespace Problem

/-! ## Operands -/

/-- The arena: fill, the rows, and a spare row of fill. -/
def arena (t : TestCase) (activations : Bytes) : Bytes :=
  Array.replicate t.aOffset fillByte ++ activations ++ Array.replicate t.k fillByte

/-- References to each row of the tile, once for each tap. -/
def orderedRows (t : TestCase) : Array IndirectRow :=
  ((List.range (t.ks * t.shape.mr)).map fun i ↦ .input (i % t.shape.mr * t.k)).toArray

/-- The reference of row `i` of a tap, where `drawn` is the one that was drawn for it. Rows past the
problem are spare. -/
def assignedRow (t : TestCase) (i : Nat) (drawn : IndirectRow) : IndirectRow :=
  if t.m ≤ i then .input (t.shape.mr * t.k)
  else if t.zeroIndex = some i then .zero
  else drawn

/-- The references of the problem, from the shuffled ones. -/
def assignRows (t : TestCase) (drawn : Array IndirectRow) : Array IndirectRow :=
  drawn.mapIdx fun i r ↦ assignedRow t (i % t.shape.mr) r

/-- A bias between -10000 and 10000. -/
def drawBias {σ : Type} [WordSource σ] : Draw σ Int32 := do
  pure (Int32.ofInt ((← drawBelow 20001 : Nat) - 10000))

/-! ## Reference accumulators -/

def activation (t : TestCase) (input : Bytes) (r : IndirectRow) (kk : Nat) : UInt8 :=
  match r with
  | .input position => input.at0 (position + t.aOffset + kk)
  | .zero => t.aZeroPoint

/-- What one position of a tap adds to an accumulator. -/
def term (t : TestCase) (input : Bytes) (rows : Array IndirectRow) (weights : Bytes)
    (i j tap kk : Nat) : Int32 :=
  let a := activation t input (rows.getD (tap * t.shape.mr + i) .zero) kk
  let w := weights.at0 ((j * t.ks + tap) * t.k + kk)
  (byteToInt32 a - byteToInt32 t.aZeroPoint) * (byteToInt32 w - byteToInt32 t.bZeroPoint)

/-- The accumulator of row `i` and column `j`. -/
def accumulator (t : TestCase) (input : Bytes) (rows : Array IndirectRow) (weights : Bytes)
    (bias : Array Int32) (i j : Nat) : Int32 :=
  bias.getD j 0 +
    sumBelow t.ks fun tap ↦ sumBelow t.k fun kk ↦ term t input rows weights i j tap kk

/-- All accumulators, row by row. -/
def accumulatorsOf (t : TestCase) (input : Bytes) (rows : Array IndirectRow) (weights : Bytes)
    (bias : Array Int32) : Array Int32 :=
  ((List.range t.m).flatMap fun i ↦
    (List.range t.n).map fun j ↦ accumulator t input rows weights bias i j).toArray

/-! ## Drawing a problem -/

/-- Goes on with a value, or ends the drawing with the failure. -/
def orEnd {σ α : Type} : Except Failure α → Draw σ α
  | .ok a => pure a
  | .error e => throw e

/-- Draws the operands of a test case: the activations, the order of the rows, the weights and the
bias. `attempts` bounds how often constant bytes are drawn again. -/
def generate {σ : Type} [WordSource σ] (attempts : Nat) (t : TestCase) : Draw σ Problem := do
  orEnd (asRefusal t.validate)
  let activations ← drawVaried attempts (t.shape.mr * t.k)
  let drawn ← shuffle (orderedRows t)
  let weights ← drawVaried attempts (t.n * t.ks * t.k)
  let bias := (← (List.range t.n).mapM fun _ ↦ drawBias).toArray
  let filter : Filter := ⟨t.filterShape, weights, some bias⟩
  let target := Array.replicate (t.shape.packedSize t.filterShape) t.bZeroPoint
  let packed ← orEnd (filter.pack t.shape ⟨t.aZeroPoint, t.bZeroPoint⟩ target)
  let input := arena t activations
  let rows := assignRows t drawn
  pure {
    shape := t.shape, m := t.m, n := t.n, k := t.k, ks := t.ks
    cmStride := t.cmStride, cnStride := t.cnStride
    view := ⟨rows, input, Array.replicate t.k t.aZeroPoint, t.aOffset⟩
    weights, bias, packed
    accumulators := accumulatorsOf t input rows weights bias }

/-! ## Outputs -/

variable (p : Problem)

/-- The bytes that an output has to hold. -/
def outputLength : Nat := QuantizedGemm.outputLength p.m p.n p.shape.nr p.cmStride p.cnStride

/-- Where the element in row `i` and column `j` lies in the output. -/
def outputPosition (i j : Nat) : Nat :=
  QuantizedGemm.outputPosition p.shape.nr p.cmStride p.cnStride i j

/-- The elements of an output row by row, without what lies between them. -/
def denseOutput (c : Bytes) : List UInt8 :=
  (List.range p.m).flatMap fun i ↦ (List.range p.n).map fun j ↦ c.at0 (p.outputPosition i j)

end Problem

end QuantizedGemm
