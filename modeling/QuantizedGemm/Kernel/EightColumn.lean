import QuantizedGemm.Kernel.Lanes
import QuantizedGemm.Kernel.Microkernel

/-!
# Vector kernels with eight columns

Kernels of 256 bits for groups of eight reduction positions. A vector holds a pair of columns, the
even one in its lower half. The activations of a row are the same in both halves. At the end of a
tile the lanes of the four pairs are summed in the halves, and a permutation of the whole vector
puts the eight sums in the order of the columns.
-/

namespace QuantizedGemm.EightColumn

open Lanes

/-- The partial sums of eight columns, two to a vector. -/
abbrev PairLanes := Vector (Vector Int32 8) 4

variable (p : SimdParams) (o : TileOperands)

/-- The bias words, each in the lowest lane of its column. -/
def biasLanes : Except Fault PairLanes :=
  fourOf fun q ↦ do
    pure (lowWords (← o.weights.readInt32 (4 * (2 * q))) (← o.weights.readInt32 (4 * (2 * q + 1))))

def blocks : Nat := roundUp o.kc 8 / 8

/-- The weights of the column pair `q` in the 64 bytes from `i` on, less the zero point. -/
def loadWeights (i q : Nat) : Except Fault (Vector Int16 16) := do
  let bytes ← read16 o.weights (i + 16 * q)
  pure (sub16 (widen bytes) (Vector.replicate 16 p.kernelZeroPoint))

def addBlock (row tap block : Nat) (acc : PairLanes) : Except Fault PairLanes := do
  let activations := widen (repeatLow8 (← readPadded (← readAt o.rows row) o.kc (block * 8)))
  let weights ← fourOf fun q ↦ loadWeights p o (32 + (tap * blocks o + block) * 64) q
  pure (Vector.zipWith (fun v w ↦ add32 v (multiplyAdd activations w)) acc weights)

def rowLanes (mr i : Nat) : Except Fault PairLanes := do
  (List.range o.ks).foldlM
    (fun acc tap ↦
      (List.range (blocks o)).foldlM
        (fun acc block ↦ addBlock p o (tap * mr + i) tap block acc) acc)
    (← biasLanes o)

/-- Where the sum of each column is after the lanes of the pairs are summed. -/
def columnSources : Vector (Fin 8) 8 := #v[0, 4, 1, 5, 2, 6, 3, 7]

/-- The accumulators of a row, one lane for each column. -/
def sumColumns : PairLanes → Vector Int32 8 := combineFour fun a b c d ↦
  permute32 (addPairs32Wide (addPairs32Wide a b) (addPairs32Wide c d)) columnSources

/-- The accumulators of row `i`, one lane for each column. -/
def rowSums (mr i : Nat) : Except Fault (Vector Int32 8) := do
  pure (sumColumns (← rowLanes p o mr i))

/-- The output bytes of two rows of scaled accumulators, eight for each row. -/
def packRows (lo hi : Vector Int32 8) : Vector UInt8 16 :=
  let v01 := swapMiddleQuarters
    (addSaturating16 (pack32Wide lo hi) (Vector.replicate 16 p.outputZeroPoint))
  max8 (pack16 (lowHalf v01) (highHalf v01)) (Vector.replicate 16 p.outputMin)

/-- The output bytes of scaled rows, two rows at a time. A last row without partner is its own. -/
def packAll : List (Vector Int32 8) → List Bytes
  | [] => []
  | [a] => [(packRows p a a).toArray.extract 0 8]
  | a :: b :: rest =>
    let v := (packRows p a b).toArray
    v.extract 0 8 :: v.extract 8 16 :: packAll rest

/-- The kernel of `mr` rows. -/
def microkernel (mr : Nat) : Microkernel SimdParams where
  isa := .avx2
  shape := ⟨mr, 8, 8, 1⟩
  compute p o := do
    let sums ← (List.range mr).mapM (rowSums p o mr)
    pure (packAll p (sums.map (scaleLanes p.scale p.maxLessZeroPoint))).toArray

end QuantizedGemm.EightColumn
