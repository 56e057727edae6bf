import QuantizedGemm.Capabilities
import QuantizedGemm.Kernel.Call

/-!
# Microkernels

A `Microkernel` is what makes one kernel different from another: the instruction set that it is
written for, the shape of its tile, and the computation of a tile.

## The common frame

All kernels take the parameters of their own family, check the buffers, and make sure that the host
runs their instructions. Then they fetch the rows, and for one column tile after the other compute
the outputs of the tile and store those that belong to the call. A store writes the rows of a tile
one after the other. Where strides make tiles overlap, the later store wins.

## Reads and arithmetic

A tile computation reads its operands at positions that it works out itself, and nothing but the
check of the call keeps these positions inside. So every read is a checked one. A portable
computation also subtracts and multiplies plain 32-bit integers, which have room for every parameter
that is derived from arguments, but parameters can be made up of any numbers. Both is why a
computation may fault.
-/

namespace QuantizedGemm

/-- What the computation of one tile reads. -/
structure TileOperands where
  kc : Nat
  ks : Nat
  /-- The rows of the left operand, `kc` bytes each, tap by tap. -/
  rows : Array Bytes
  /-- The packed weights of the tile. -/
  weights : Bytes

/-- A tile shape, and the output bytes of a tile by row and column. -/
structure Microkernel (π : Type) where
  isa : Isa
  shape : TileShape
  compute : π → TileOperands → Except Fault (Array Bytes)

/-- A host without the instructions of a kernel. What it has instead is not looked into. -/
def unsupportedHardware (isa : Isa) : Error := .kernel (.unsupportedHardware isa "none")

/-- Writes the first `cols` bytes of a row to the output from `start` on. -/
def storeRow (start cols : Nat) (row : Bytes) : EStateM Failure Bytes Unit := do
  if start + cols ≤ (← get).size then modify fun c ↦ c.overwrite start cols row.at0
  else throw (.fault .outOfBounds)

/-- Writes the first `mr` rows of a tile to the output, the first one from `base` on. -/
def storeTile (tile : Array Bytes) (mr cols base cmStride : Nat) : EStateM Failure Bytes Unit :=
  (List.range (min mr tile.size)).forM fun i ↦
    storeRow (base + i * cmStride) cols (tile.getD i #[])

/-- The rows of all taps. -/
def Call.fetchRows? (call : Call) (mr : Nat) : Option (Array Bytes) :=
  ((List.range (call.ks * mr)).mapM fun i ↦ call.view.fetch? i call.kc).map List.toArray

/-- The packed weights of one column tile. -/
def Call.tileWeights? (call : Call) (tileSize tile : Nat) : Option Bytes :=
  if (tile + 1) * tileSize ≤ call.weights.size then
    some (call.weights.extract (tile * tileSize) ((tile + 1) * tileSize))
  else none

namespace Microkernel

variable {π : Type}

/-- Computes and stores one column tile. -/
def runTile (k : Microkernel π) (p : π) (call : Call) (rows : Array Bytes) (tile : Nat) :
    EStateM Failure Bytes Unit := do
  let size := k.shape.packedTileSize call.ks call.kc
  let weights ← orFault .outOfBounds (call.tileWeights? size tile)
  let out ← orRaise (k.compute p ⟨call.kc, call.ks, rows, weights⟩)
  let cols := min k.shape.nr (call.nc - tile * k.shape.nr)
  storeTile out call.mr cols (tile * call.cnStride) call.cmStride

/-- The kernel of a tile computation, on a given host. -/
def kernel [ParamsFamily π] (k : Microkernel π) (host : Capabilities) : Kernel := fun call ↦ do
  let p ← orRefuse (call.params.get π)
  orRefuse (k.shape.check call (← get).size)
  if !host.supports k.isa then throw (.refused (unsupportedHardware k.isa))
  let rows ← orFault .outOfBounds (call.fetchRows? k.shape.mr)
  (List.range (k.shape.columnTiles call.nc)).forM (k.runTile p call rows)

end Microkernel

end QuantizedGemm
