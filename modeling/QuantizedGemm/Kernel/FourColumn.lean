import QuantizedGemm.Kernel.Lanes
import QuantizedGemm.Kernel.Microkernel

/-!
# Vector kernels with four columns

Kernels of 128 bits for groups of eight reduction positions. Eight activations and eight weights of
a column are widened to 16 bits, multiplied, and added in pairs, so that a column keeps its partial
sums in four lanes until the end of the tile. Then the lanes of the four columns are summed and
transposed at once into one vector with a lane for each column.

## Two instruction sets

The two instruction sets differ in how they widen bytes and how they sum lanes. The older one widens
by interleaving with zeros and transposes by unpacking, the newer one has an instruction for each.
`LaneOps` holds the operations that differ, and one kernel is written for any of them.
-/

namespace QuantizedGemm.FourColumn

open Lanes

/-- The partial sums of four columns. -/
abbrev ColumnLanes := Vector (Vector Int32 4) 4

/-- How an instruction set widens the lower eight bytes of a vector and sums up the lanes of four
columns. -/
structure LaneOps where
  isa : Isa
  widenLow : Vector UInt8 16 → Vector Int16 8
  sumColumns : ColumnLanes → Vector Int32 4

/-- Interleaves with zeros, and sums by interleaving the columns twice. -/
def LaneOps.sse2 : LaneOps where
  isa := .sse2
  widenLow a := pairs16 (interleaveLow8 a (Vector.replicate 16 0))
  sumColumns := combineFour fun a b c d ↦
    let ac := add32 (interleaveLow32 a c) (interleaveHigh32 a c)
    let bd := add32 (interleaveLow32 b d) (interleaveHigh32 b d)
    add32 (interleaveLow32 ac bd) (interleaveHigh32 ac bd)

/-- Widens at once, and sums neighbouring lanes twice. -/
def LaneOps.sse41 : LaneOps where
  isa := .sse41
  widenLow := Lanes.widenLow
  sumColumns := combineFour fun a b c d ↦ addPairs32 (addPairs32 a b) (addPairs32 c d)

/-- The upper eight bytes, widened. -/
def widenHigh (a : Vector UInt8 16) : Vector Int16 8 :=
  pairs16 (interleaveHigh8 a (Vector.replicate 16 0))

variable (s : LaneOps) (p : SimdParams) (o : TileOperands)

/-- The weights of four columns, less the zero point, from the bytes of two columns each. -/
def lessZeroPoint (v01 v23 : Vector UInt8 16) : Vector (Vector Int16 8) 4 :=
  let zeroPoint := Vector.replicate 8 p.kernelZeroPoint
  #v[sub16 (s.widenLow v01) zeroPoint, sub16 (widenHigh v01) zeroPoint,
    sub16 (s.widenLow v23) zeroPoint, sub16 (widenHigh v23) zeroPoint]

/-- The weights of the four columns in the 32 bytes from `i` on, less the zero point. -/
def loadWeights (i : Nat) : Except Fault (Vector (Vector Int16 8) 4) := do
  pure (lessZeroPoint s p (← read16 o.weights i) (← read16 o.weights (i + 16)))

/-- The bias words, each in the lowest lane of its column. -/
def biasLanes : Except Fault ColumnLanes :=
  fourOf fun j ↦ do pure (lowWord (← o.weights.readInt32 (4 * j)))

def blocks : Nat := roundUp o.kc 8 / 8

def addBlock (row tap block : Nat) (acc : ColumnLanes) : Except Fault ColumnLanes := do
  let activations := s.widenLow (← readPadded (← readAt o.rows row) o.kc (block * 8))
  let weights ← loadWeights s p o (16 + (tap * blocks o + block) * 32)
  pure (Vector.zipWith (fun v w ↦ add32 v (multiplyAdd activations w)) acc weights)

def rowLanes (mr i : Nat) : Except Fault ColumnLanes := do
  (List.range o.ks).foldlM
    (fun acc tap ↦
      (List.range (blocks o)).foldlM
        (fun acc block ↦ addBlock s p o (tap * mr + i) tap block acc) acc)
    (← biasLanes o)

/-- The accumulators of row `i`, one lane for each column. -/
def rowSums (mr i : Nat) : Except Fault (Vector Int32 4) := do
  pure (s.sumColumns (← rowLanes s p o mr i))

/-- The output bytes of two rows of scaled accumulators, four for each row. -/
def packRows (lo hi : Vector Int32 4) : Vector UInt8 16 :=
  let v01 := addSaturating16 (pack32 lo hi) (Vector.replicate 8 p.outputZeroPoint)
  max8 (pack16 v01 v01) (Vector.replicate 16 p.outputMin)

/-- The output bytes of scaled rows, two rows at a time. A last row without partner is its own. -/
def packAll : List (Vector Int32 4) → List Bytes
  | [] => []
  | [a] => [(packRows p a a).toArray.extract 0 4]
  | a :: b :: rest =>
    let v := (packRows p a b).toArray
    v.extract 0 4 :: v.extract 4 8 :: packAll rest

/-- The kernel of `mr` rows. -/
def microkernel (mr : Nat) : Microkernel SimdParams where
  isa := s.isa
  shape := ⟨mr, 4, 8, 1⟩
  compute p o := do
    let sums ← (List.range mr).mapM (rowSums s p o mr)
    pure (packAll p (sums.map (scaleLanes p.scale p.maxLessZeroPoint))).toArray

end QuantizedGemm.FourColumn
