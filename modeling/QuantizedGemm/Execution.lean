import QuantizedGemm.Convolution
import QuantizedGemm.Variant

/-!
# Running variants

Whole computations around a kernel: one call with weights that are packed for it first, and a
convolution, which takes one call for each tile of output pixels.

## Tiles of a convolution

Each call writes to the output from the start of its own tile on. The table of references, the
packed weights and the parameters are made once, and a failure of any of them comes before the first
call.
-/

namespace QuantizedGemm

/-- Weights that are packed already, or that are to be packed for the variant. -/
inductive WeightSource where
  | packed (bytes : Bytes)
  | filter (f : Filter) (zp : ZeroPoints)

/-- Packs a filter into a buffer of exactly the size it takes. -/
def Filter.packFresh (f : Filter) (t : TileShape) (zp : ZeroPoints) : Except Failure Bytes :=
  f.pack t zp (Array.replicate (t.packedSize f.toFilterShape) 0)

/-- The packed weights for a tile shape. -/
def WeightSource.bytes (t : TileShape) : WeightSource → Except Failure Bytes
  | packed b => .ok b
  | filter f zp => f.packFresh t zp

/-- Packs the weights, derives parameters of a family, and calls the kernel with both. -/
def Variant.launch (v : Variant) (host : Capabilities) (source : WeightSource) (family : Family)
    (args : QuantizationArgs) (call : Bytes → Params → Call) : EStateM Failure Bytes Unit := do
  let weights ← orFail (source.bytes v.shape)
  let params ← orRefuse (family.derive args)
  v.kernel host (call weights params)

/-- Runs on the part of a buffer from `start` on. -/
def onSuffix (start : Nat) (run : EStateM Failure Bytes Unit) : EStateM Failure Bytes Unit :=
  fun c ↦
    let front := c.extract 0 start
    match run (c.extract start c.size) with
    | .ok _ back => .ok () (front ++ back)
    | .error e back => .error e (front ++ back)

/-- A convolution: a geometry, a filter with one tap for each position of the window, and an image
of `filter.kc` channels that starts at `offset` of the input. -/
structure Convolution where
  geometry : ConvGeometry
  nc : Nat
  kc : Nat
  weights : Bytes
  bias : Option (Array Int32)
  zeroPoints : ZeroPoints
  args : QuantizationArgs
  input : Bytes
  offset : Nat

namespace Convolution

variable (c : Convolution)

def filter : Filter := ⟨⟨c.nc, c.geometry.kernelSize, c.kc⟩, c.weights, c.bias⟩

/-- The kernel call of one tile. The last tile may have fewer rows than the kernel's own tile. -/
def tileCall (t : TileShape) (rows : ConvIndirection) (weights : Bytes) (params : Params)
    (tile : Nat) : Call where
  mr := min t.mr (rows.outputSize - tile * t.mr)
  nc := c.nc
  kc := c.kc
  ks := rows.ks
  view := ⟨rows.tile tile, c.input, Array.replicate c.kc c.zeroPoints.input, c.offset⟩
  weights := weights
  cmStride := c.nc
  cnStride := t.nr
  params := params

/-- Where the output of a tile starts, and how many bytes it has. -/
def tileSpan (t : TileShape) (outputSize tile : Nat) : Nat × Nat :=
  (tile * t.mr * c.nc, min t.mr (outputSize - tile * t.mr) * c.nc)

/-- Runs the convolution with a variant on a host. The output holds `nc` bytes for each output
pixel. -/
def run (v : Variant) (host : Capabilities) : Except Failure Bytes := do
  let rows ← c.geometry.indirection v.shape.mr
  let weights ← c.filter.packFresh v.shape c.zeroPoints
  let params ← asRefusal (v.derive c.args)
  let step (tile : Nat) : EStateM Failure Bytes Unit :=
    onSuffix (tile * v.shape.mr * c.nc)
      (v.kernel host (c.tileCall v.shape rows weights params tile))
  match (List.range rows.tileCount).forM step (Array.replicate (rows.outputSize * c.nc) 0) with
  | .ok _ output => pure output
  | .error e _ => throw e

end Convolution

end QuantizedGemm
