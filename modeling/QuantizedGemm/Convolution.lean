import QuantizedGemm.Indirection

/-!
# Two-dimensional convolution

A convolution over one image reads a window of the image for each output pixel. Written as
references, a window is one row for each tap, and taps that fall into the padding read the zero
buffer. The references are laid out in tiles of `mr` output pixels, tap by tap within a tile; the
last tile repeats the last pixel where the pixels run out.

## Writing and reading the table

The table is filled pixel by pixel. Each reference goes to a place that is worked out for it, so
that the references of one pixel are `mr` places apart (`ConvGeometry.writeTable`). Read in order,
the table lists the references tile by tile (`ConvGeometry.table`).

## Refusals

A geometry is refused if a size, a stride or a dilation of it is zero, or if its kernel does not fit
into the padded image. The products of sizes are numbers without a bound.
-/

namespace QuantizedGemm

/-- A height and a width. -/
structure Extent where
  height : Nat
  width : Nat
  deriving DecidableEq, Repr

/-- The shape of a convolution. -/
structure ConvGeometry where
  input : Extent := ⟨1, 1⟩
  /-- The distance in bytes between neighbouring pixels of the input. -/
  pixelStride : Nat := 1
  kernel : Extent := ⟨1, 1⟩
  subsampling : Extent := ⟨1, 1⟩
  dilation : Extent := ⟨1, 1⟩
  paddingTop : Nat := 0
  paddingRight : Nat := 0
  paddingBottom : Nat := 0
  paddingLeft : Nat := 0
  deriving DecidableEq, Repr

/-- The positions at which a dilated kernel fits into a padded line, counted in steps of the
subsampling. -/
def outputDimension (padded kernel dilation subsampling : Nat) : Nat :=
  let effective := (kernel - 1) * dilation + 1
  if padded < effective then 0 else (padded - effective) / subsampling + 1

/-- `outputDimension`, refused for a kernel without taps and for steps of no width. -/
def outputDimension? (padded kernel dilation subsampling : Nat) : Option Nat :=
  if kernel = 0 then none
  else if (kernel - 1) * dilation + 1 ≤ padded ∧ subsampling = 0 then none
  else some (outputDimension padded kernel dilation subsampling)

namespace ConvGeometry

variable (g : ConvGeometry)

/-- The number of taps. -/
def kernelSize : Nat := g.kernel.height * g.kernel.width

/-- The input with its padding. -/
def padded : Extent :=
  ⟨g.paddingTop + g.input.height + g.paddingBottom,
    g.paddingLeft + g.input.width + g.paddingRight⟩

def output : Extent :=
  ⟨outputDimension g.padded.height g.kernel.height g.dilation.height g.subsampling.height,
    outputDimension g.padded.width g.kernel.width g.dilation.width g.subsampling.width⟩

/-- `output`, refused where one of its dimensions is. -/
def output? : Option Extent := do
  let height ←
    outputDimension? g.padded.height g.kernel.height g.dilation.height g.subsampling.height
  let width ← outputDimension? g.padded.width g.kernel.width g.dilation.width g.subsampling.width
  pure ⟨height, width⟩

/-- The number of output pixels. -/
def outputSize : Nat := g.output.height * g.output.width

/-- The sizes that have to be positive, in the order in which they are checked. -/
def positiveSizes : List (String × Nat) :=
  [("input height", g.input.height), ("input width", g.input.width),
   ("kernel height", g.kernel.height), ("kernel width", g.kernel.width),
   ("subsampling height", g.subsampling.height), ("subsampling width", g.subsampling.width),
   ("dilation height", g.dilation.height), ("dilation width", g.dilation.width)]

/-- Every size is positive and there is an output. -/
def validate : Except Error Unit :=
  match g.positiveSizes.find? fun p ↦ p.2 == 0 with
  | some p => .error (geometryError s!"{p.1} must be non-zero")
  | none =>
    if g.outputSize = 0 then
      .error (geometryError <|
        s!"{g.kernel.height}x{g.kernel.width} kernel " ++
        s!"(dilation {g.dilation.height}x{g.dilation.width}) does not fit the padded " ++
        s!"{g.padded.height}x{g.padded.width} input")
    else .ok ()

/-- A position of the padded line as a position of the input, if it is no padding. -/
def insidePosition? (position padding size : Nat) : Option Nat :=
  if padding ≤ position ∧ position - padding < size then some (position - padding) else none

def windowRow (pixel tap : Nat) : IndirectRow :=
  let oy := pixel / g.output.width
  let ox := pixel % g.output.width
  let ky := tap / g.kernel.width
  let kx := tap % g.kernel.width
  match insidePosition? (oy * g.subsampling.height + ky * g.dilation.height) g.paddingTop
      g.input.height,
    insidePosition? (ox * g.subsampling.width + kx * g.dilation.width) g.paddingLeft
      g.input.width with
  | some y, some x => .input ((y * g.input.width + x) * g.pixelStride)
  | _, _ => .zero

end ConvGeometry

/-- The references of a whole convolution. -/
structure ConvIndirection where
  rows : Array IndirectRow
  mr : Nat
  ks : Nat
  outputSize : Nat
  deriving DecidableEq

namespace ConvIndirection

variable (c : ConvIndirection)

/-- The number of tiles. -/
def tileCount : Nat := divideUp c.outputSize c.mr

def tile (n : Nat) : Array IndirectRow :=
  let length := c.mr * c.ks
  c.rows.extract (n * length) ((n + 1) * length)

end ConvIndirection

namespace ConvGeometry

variable (g : ConvGeometry)

/-- The place of a reference: tile, tap, and row of the tile. -/
def place (mr n tap r : Nat) : Nat := n * mr * g.kernelSize + tap * mr + r

/-- The reference of a place. Rows past the last pixel repeat it. -/
def placedRow (mr n tap r : Nat) : IndirectRow :=
  g.windowRow (min (n * mr + r) (g.outputSize - 1)) tap

/-- Writes the references of the pixel in row `r` of tile `n`. -/
def writePixel (mr n r : Nat) (rows : Array IndirectRow) : Except Fault (Array IndirectRow) :=
  (List.range g.kernel.height).foldlM
    (fun rows ky ↦
      (List.range g.kernel.width).foldlM
        (fun rows kx ↦
          let tap := ky * g.kernel.width + kx
          writeAt rows (g.place mr n tap r) (g.placedRow mr n tap r))
        rows)
    rows

/-- Writes the references of all pixels. -/
def writeTable (mr : Nat) : Except Fault (Array IndirectRow) :=
  let tiles := divideUp g.outputSize mr
  (List.range tiles).foldlM
    (fun rows n ↦ (List.range mr).foldlM (fun rows r ↦ g.writePixel mr n r rows) rows)
    (Array.replicate (tiles * mr * g.kernelSize) .zero)

def checkTable (mr : Nat) : Except Error Unit := do
  if mr = 0 then throw (geometryError "mr must be non-zero")
  g.validate

/-- Lays out the references of a convolution for tiles of `mr` pixels. -/
def indirection (mr : Nat) : Except Failure ConvIndirection := do
  asRefusal (g.checkTable mr)
  let rows ← asFault (g.writeTable mr)
  pure ⟨rows, mr, g.kernelSize, g.outputSize⟩

/-- `indirection`, with the record of a layout that was built. -/
def indirectionLogged (mr : Nat) : Except Failure (Logged ConvIndirection) := do
  let c ← g.indirection mr
  let text := s!"conv2d indirection: {g.output.height}x{g.output.width} output, ks={c.ks}, " ++
    s!"{c.rows.size} rows"
  pure ⟨c, [⟨.trace, text⟩]⟩

end ConvGeometry

end QuantizedGemm
