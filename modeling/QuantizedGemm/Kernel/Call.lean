import QuantizedGemm.Checked
import QuantizedGemm.Indirection
import QuantizedGemm.Quantization.Params

/-!
# Kernel calls

A kernel writes an output of `mr` rows and `nc` columns. Column tile `t` of row `i` starts at
`i * cmStride + t * cnStride`. The left operand comes through an indirection view with one row for
each tap and each row of the kernel's own tile: rows past `mr` are read, but no result of theirs is
kept. The weights are packed for the kernel's tile.

The output buffer is the state of a kernel. It outlives a failure, so that what a failing call has
written stays visible.
-/

namespace QuantizedGemm

/-- The arguments of a kernel, its output buffer apart. -/
structure Call where
  mr : Nat
  nc : Nat
  kc : Nat
  ks : Nat
  view : IndirectView
  weights : Bytes
  cmStride : Nat
  cnStride : Nat
  params : Params

/-- A kernel works on the output buffer until it is done or fails. -/
abbrev Kernel := Call → EStateM Failure Bytes Unit

namespace TileShape

/-- Every buffer that a call touches is large enough. -/
def check (t : TileShape) (call : Call) (outputSize : Nat) : Except Error Unit := do
  if call.mr = 0 ∨ t.mr < call.mr ∨ call.nc = 0 ∨ call.kc = 0 ∨ call.ks = 0 then
    throw (geometryError <|
      s!"{t.mr}x{t.nr} kernel called with mr={call.mr} nc={call.nc} kc={call.kc} ks={call.ks}")
  call.view.validate t.mr call.ks call.kc
  requireLength "packed weights" (t.packedSize ⟨call.nc, call.ks, call.kc⟩) call.weights.size
  requireLength "output" (outputLength call.mr call.nc t.nr call.cmStride call.cnStride) outputSize

end TileShape

/-- Goes on with a value, or fails with the refusal. -/
def orRefuse {α : Type} : Except Error α → EStateM Failure Bytes α
  | .ok a => pure a
  | .error e => throw (.refused e)

/-- Goes on with a value, or fails as it failed. -/
def orFail {α : Type} : Except Failure α → EStateM Failure Bytes α
  | .ok a => pure a
  | .error e => throw e

/-- Goes on with a value, or fails because there is none. -/
def orFault {α : Type} (fault : Fault) : Option α → EStateM Failure Bytes α
  | some a => pure a
  | none => throw (.fault fault)

/-- Goes on with a value, or fails with the fault. -/
def orRaise {α : Type} : Except Fault α → EStateM Failure Bytes α
  | .ok a => pure a
  | .error fault => throw (.fault fault)

end QuantizedGemm
