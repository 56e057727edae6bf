/-!
# Instruction sets

The instruction set extension that a kernel needs. An `Isa` is an identity only: whether the host
can run it is a question for its `Capabilities`.
-/

namespace QuantizedGemm

/-- An instruction set extension. -/
inductive Isa where
  /-- Portable code, which every host runs. -/
  | scalar
  /-- Vectors of 128 bits. -/
  | sse2
  /-- Vectors of 128 bits, with widening loads and horizontal sums. -/
  | sse41
  /-- Vectors of 256 bits. -/
  | avx2
  /-- Vectors of 128 bits, with conversions that round. -/
  | neonv8
  /-- Vectors of 128 bits in WebAssembly. -/
  | wasmsimd
  deriving DecidableEq, Repr

namespace Isa

/-- Every extension, in the order in which lists of them are written. -/
def all : List Isa := [scalar, sse2, sse41, avx2, neonv8, wasmsimd]

/-- The position in `all`. -/
def rank : Isa → Nat
  | scalar => 0
  | sse2 => 1
  | sse41 => 2
  | avx2 => 3
  | neonv8 => 4
  | wasmsimd => 5

/-- The short name that ends the names of kernels. -/
def tag : Isa → String
  | scalar => "scalar"
  | sse2 => "sse2"
  | sse41 => "sse41"
  | avx2 => "avx2"
  | neonv8 => "neonv8"
  | wasmsimd => "wasmsimd"

/-- The name of the constructor, as reports on a value's structure write it. -/
def constructorName : Isa → String
  | scalar => "Scalar"
  | sse2 => "Sse2"
  | sse41 => "Sse41"
  | avx2 => "Avx2"
  | neonv8 => "NeonV8"
  | wasmsimd => "WasmSimd"

/-- The extension with a given tag. -/
def ofTag? (t : String) : Option Isa := all.find? fun i ↦ i.tag == t

def sort (isas : List Isa) : List Isa := isas.mergeSort fun a b ↦ decide (a.rank ≤ b.rank)

/-- The tag as a table cell. A width asked of the cell does not apply to a tag. -/
def cell (i : Isa) : String := s!"[{i.tag}]"

end Isa

end QuantizedGemm
