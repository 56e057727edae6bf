import QuantizedGemm.Kernel.EightColumn
import QuantizedGemm.Kernel.FourColumn
import QuantizedGemm.Kernel.Portable

/-!
# Kernel variants

A variant is a kernel with all that a caller needs to drive it: the instruction set it runs on, the
shape of its tile, and the family of its parameters. Its name spells out these three.

## Hosts

The kernel is given for each host, since it refuses to run on one without its instructions. The
portable kernels run on every host.

## Order

The catalogue lists the vector variants first, in the order of preference, and then the portable
ones. Whoever picks the first variant that a host runs gets the preferred one.
-/

namespace QuantizedGemm

/-- A kernel and how to drive it. -/
structure Variant where
  isa : Isa
  shape : TileShape
  family : Family
  kernel : Capabilities → Kernel

/-- The shape of a tile as names of variants spell it. Parts that do not group or rotate the
reduction are left out. -/
def TileShape.spelling (t : TileShape) : String :=
  let base := s!"{t.mr}x{t.nr}"
  if t.sr ≠ 1 then s!"{base}c{t.kr}s{t.sr}"
  else if t.kr ≠ 1 then s!"{base}c{t.kr}"
  else base

namespace Variant

variable (v : Variant)

/-- How the kernel rounds. -/
def strategy : Strategy := v.family.strategy

/-- The ending of a variant's name: the instruction set, and the output stage where a strategy has
several. -/
def suffix : String :=
  match v.family with
  | .fmagic => s!"{v.isa.tag}_fmagic"
  | .imagic => s!"{v.isa.tag}_imagic"
  | .lrintf => s!"{v.isa.tag}_lrintf"
  | .simd | .rndnu => v.isa.tag

def name : String :=
  s!"qu8_igemm_minmax_{v.strategy.name}_ukernel_{v.shape.spelling}__{v.suffix}"

/-- The reference that the kernel agrees with. -/
def reference : Requantizer := v.strategy.reference

def derive (a : QuantizationArgs) : Except Error Params := v.family.derive a

/-- Whether a probe of a host finds that it runs the kernel. -/
def isAvailable (host : Capabilities) (forceScalar : Bool) : Logged Bool :=
  let caps := host.probe forceScalar
  ⟨caps.value.supports v.isa, caps.records⟩

/-- The portable kernel of a tile shape, with the output stage of a family. -/
def portable (π : Type) [OutputStage π] (t : TileShape) : Variant :=
  ⟨.scalar, t, ParamsFamily.family π, (Portable.microkernel t π).kernel⟩

def vector (k : Microkernel SimdParams) : Variant := ⟨k.isa, k.shape, .simd, k.kernel⟩

/-- The vector kernels of x86 processors. -/
def vectorVariants : List Variant :=
  [vector (EightColumn.microkernel 2), vector (FourColumn.microkernel .sse41 3),
   vector (FourColumn.microkernel .sse2 2), vector (FourColumn.microkernel .sse2 1)]

/-- The tiles that the plain floating-point kernels come in. -/
def plainTiles : List TileShape :=
  [⟨1, 2, 1, 1⟩, ⟨1, 4, 1, 1⟩, ⟨2, 2, 1, 1⟩, ⟨2, 4, 1, 1⟩,
   ⟨3, 2, 1, 1⟩, ⟨3, 4, 1, 1⟩, ⟨4, 2, 1, 1⟩, ⟨4, 4, 1, 1⟩]

/-- The tiles that the fixed-point kernels come in. -/
def fixedPointTiles : List TileShape := [⟨1, 2, 1, 1⟩, ⟨2, 4, 1, 1⟩, ⟨4, 4, 1, 1⟩]

/-- The tiles that group or rotate the reduction. -/
def groupedTiles : List TileShape := [⟨1, 4, 2, 1⟩, ⟨2, 4, 8, 1⟩, ⟨3, 4, 2, 4⟩, ⟨4, 4, 2, 4⟩]

def portableVariants : List Variant :=
  plainTiles.map (portable FmagicParams) ++ plainTiles.map (portable ImagicParams) ++
    plainTiles.map (portable LrintfParams) ++ fixedPointTiles.map (portable RndnuParams) ++
    groupedTiles.map (portable LrintfParams)

/-- All variants. -/
def catalogue : List Variant := vectorVariants ++ portableVariants

end Variant

end QuantizedGemm
