import QuantizedGemm.Checked
import QuantizedGemm.Log
import QuantizedGemm.Quantization.Args
import QuantizedGemm.Tile
import QuantizedGemm.WrappingSum

/-!
# Packed weights

A filter has `nc` output channels, each with `ks` taps of `kc` weights and a bias. Kernels read it
packed into tiles of `nr` columns:

```text
[ nr words: bias ][ tap 0: steps × nr × kr bytes ] … [ tap ks - 1 ]
```

A step holds a group of `kr` weights for each column. Positions past the end of the reduction and
columns past the last channel hold the kernel zero point.

## The bias words

The bias word of a column is `bias + ks * kc * izp * kzp - izp * (sum of the weights)`, which turns
the sum of `(a - izp) * (w - kzp)` into the word plus the sum of `a * (w - kzp)`. The word may wrap
around, as long as the accumulators that start from it do so too.

The share of one group, the sum of its weights times the input zero point, must not wrap. For groups
of up to `33025` weights it has room whatever the weights are. Packing for longer groups may fault,
although the word as a whole might wrap.
-/

namespace QuantizedGemm

/-- The shape of a filter. -/
structure FilterShape where
  /-- Output channels. -/
  nc : Nat
  /-- Taps. -/
  ks : Nat
  /-- Weights of a tap. -/
  kc : Nat
  deriving DecidableEq, Repr

/-- Weights by channel, tap and position, and a bias for each channel. -/
structure Filter extends FilterShape where
  weights : Bytes
  bias : Option (Array Int32)
  deriving DecidableEq

/-- The zero points that are folded into the bias. -/
structure ZeroPoints where
  input : UInt8
  kernel : UInt8
  deriving DecidableEq, Repr

namespace TileShape

/-- The bytes of one packed column tile. -/
def packedTileSize (t : TileShape) (ks kc : Nat) : Nat := t.nr * (4 + ks * t.paddedDepth kc)

def packedSize (t : TileShape) (s : FilterShape) : Nat :=
  t.columnTiles s.nc * t.packedTileSize s.ks s.kc

/-- The sizes of a tile and of a filter, refused for blocks and tiles that hold nothing. -/
def packedSizes? (t : TileShape) (s : FilterShape) : Option (Nat × Nat) :=
  if t.kBlock = 0 ∨ t.nr = 0 then none else some (t.packedTileSize s.ks s.kc, t.packedSize s)

end TileShape

namespace Filter

variable (f : Filter) (t : TileShape) (zp : ZeroPoints)

def weight (channel tap k : Nat) : UInt8 := f.weights.at0 ((channel * f.ks + tap) * f.kc + k)

/-- The bias of a channel, zero where there is none. -/
def biasAt (channel : Nat) : Int32 :=
  match f.bias with
  | none => 0
  | some b => if channel < f.nc then b.getD channel 0 else 0

/-- The weight in a lane of a packed tile, if the lane is no padding. -/
def placed (tile tap step j lane : Nat) : Option UInt8 :=
  let channel := tile * t.nr + j
  let k := t.reductionIndex step j lane
  if channel < f.nc ∧ k < f.kc then some (f.weight channel tap k) else none

def groupSum (tile tap step j : Nat) : Except Fault Int32 :=
  (List.range t.kr).foldlM
    (fun sum lane ↦
      match f.placed t tile tap step j lane with
      | some w => checkedAdd sum (byteToInt32 w)
      | none => pure sum)
    0

/-- What a group of weights takes off the bias word of its column. -/
def groupShare (tile tap step j : Nat) : Except Fault Int32 := do
  checkedMul (← f.groupSum t tile tap step j) (byteToInt32 zp.input)

/-- What the zero points add to every column, as if each of its weights were zero. -/
def biasOffset : Int32 :=
  Int32.ofNat (f.ks * f.kc) * byteToInt32 zp.input * byteToInt32 zp.kernel

/-- The bias word of column `j` of a tile: each group of weights takes its share off. -/
def biasWord (tile j : Nat) : Except Fault Int32 := do
  let shares ← sumEach f.ks fun tap ↦ sumEach (t.steps f.kc) fun step ↦
    f.groupShare t zp tile tap step j
  pure (f.biasOffset zp + f.biasAt (tile * t.nr + j) - shares)

def packedBias (tile : Nat) : Except Fault (List UInt8) := do
  let words ← (List.range t.nr).mapM fun j ↦ f.biasWord t zp tile j
  pure (words.flatMap int32Bytes)

/-- The weights of a tile, by tap, step, column and lane. -/
def packedBody (tile : Nat) : List UInt8 :=
  (List.range f.ks).flatMap fun tap ↦
    (List.range (t.steps f.kc)).flatMap fun step ↦
      (List.range t.nr).flatMap fun j ↦
        (List.range t.kr).map fun lane ↦ (f.placed t tile tap step j lane).getD zp.kernel

/-- The tiles of a filter, one after the other. -/
def packedTiles : Except Fault (List UInt8) := do
  let tiles ← (List.range (t.columnTiles f.nc)).mapM fun tile ↦ do
    pure ((← f.packedBias t zp tile) ++ f.packedBody t zp tile)
  pure tiles.flatten

end Filter

/-- Refuses a buffer that is shorter than `required`. -/
def requireLength (what : String) (required actual : Nat) : Except Error Unit :=
  if actual < required then .error (.kernel (.bufferTooSmall what required actual)) else .ok ()

/-- A refusal on account of a shape. -/
def geometryError (reason : String) : Error := .kernel (.invalidGeometry reason)

/-- The length of a reduction has to be a signed 32-bit integer. -/
def maxReduction : Nat := Int32.maxValue.toNatClampNeg

/-- Everything that packing asks of its arguments, but that the groups have room. -/
def Filter.checkPack (f : Filter) (t : TileShape) (target : Bytes) : Except Error Unit := do
  if t.nr = 0 ∨ t.kr = 0 ∨ t.sr = 0 then
    throw (geometryError
      s!"packing tile must be non-empty, got nr={t.nr} kr={t.kr} sr={t.sr}")
  requireLength "weights" (f.nc * f.ks * f.kc) f.weights.size
  if let some bias := f.bias then requireLength "bias" f.nc bias.size
  requireLength "packed weights" (t.packedSize f.toFilterShape) target.size
  if maxReduction < f.ks * f.kc then
    throw (geometryError s!"reduction length ks*kc = {f.ks}*{f.kc} does not fit in i32")

/-- Packs a filter into the front of a buffer and leaves the rest of the buffer alone. -/
def Filter.pack (f : Filter) (t : TileShape) (zp : ZeroPoints) (target : Bytes) :
    Except Failure Bytes := do
  asRefusal (f.checkPack t target)
  let tiles ← asFault (f.packedTiles t zp)
  pure (tiles.toArray ++ target.extract (t.packedSize f.toFilterShape) target.size)

/-- `Filter.pack`, with the record of a filter that was packed. -/
def Filter.packLogged (f : Filter) (t : TileShape) (zp : ZeroPoints) (target : Bytes) :
    Except Failure (Logged Bytes) := do
  let packed ← f.pack t zp target
  let size := t.packedSize f.toFilterShape
  let text := s!"packed {f.nc}x{f.ks}x{f.kc} weights into {size} bytes " ++
    s!"(nr={t.nr} kr={t.kr} sr={t.sr})"
  pure ⟨packed, [⟨.trace, text⟩]⟩

end QuantizedGemm
