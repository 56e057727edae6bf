import QuantizedGemm.Arith

/-!
# Tile shapes

A kernel computes a tile of `mr` rows and `nr` columns at a time. Packed weights keep `kr`
consecutive reduction positions of a column together, and rotate these groups among `sr` steps, so
that a block of `kr * sr` positions is complete again after `sr` steps.

## Outputs

An output is stored row by row and column tile by column tile, at distances that the caller chooses.
Its length is measured up to its last element, which lies in the last row and the last column tile
(`outputLength`). Nothing here asks that rows or tiles keep apart.
-/

namespace QuantizedGemm

/-- The shape that a kernel is built for. -/
structure TileShape where
  mr : Nat
  nr : Nat
  kr : Nat
  sr : Nat
  deriving DecidableEq, Repr

namespace TileShape

/-- The reduction positions that one round of the main loop takes. -/
def kBlock (t : TileShape) : Nat := t.kr * t.sr

/-- The length of a reduction after padding to whole blocks. -/
def paddedDepth (t : TileShape) (kc : Nat) : Nat := roundUp kc t.kBlock

/-- The steps, of one group of each column, that a reduction takes. -/
def steps (t : TileShape) (kc : Nat) : Nat := t.paddedDepth kc / t.kr

/-- The number of column tiles that cover `nc` columns. -/
def columnTiles (t : TileShape) (nc : Nat) : Nat := divideUp nc t.nr

/-- The reduction position that lane `lane` of column `j` holds in step `step`: column `j` is `j`
groups ahead of the step, and comes round at the end of the block. -/
def reductionIndex (t : TileShape) (step j lane : Nat) : Nat :=
  roundDown (step * t.kr) t.kBlock + (step * t.kr + lane + j * t.kr) % t.kBlock

end TileShape

/-- The bytes that an output of `m` rows and `n` columns spans, where rows lie `cmStride` bytes and
column tiles of `nr` bytes `cnStride` bytes apart. -/
def outputLength (m n nr cmStride cnStride : Nat) : Nat :=
  if m = 0 ∨ n = 0 then 0
  else (m - 1) * cmStride + (n - 1) / nr * cnStride + (n - 1) % nr + 1

/-- `outputLength`, refused where an output that is not empty has tiles without columns. -/
def outputLength? (m n nr cmStride cnStride : Nat) : Option Nat :=
  if m = 0 ∨ n = 0 then some 0
  else if nr = 0 then none
  else some (outputLength m n nr cmStride cnStride)

/-- Where the element in row `i` and column `j` lies in such an output. -/
def outputPosition (nr cmStride cnStride i j : Nat) : Nat :=
  i * cmStride + j / nr * cnStride + j % nr

end QuantizedGemm
