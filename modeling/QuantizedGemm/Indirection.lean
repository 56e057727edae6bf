import QuantizedGemm.Bytes
import QuantizedGemm.Packing

/-!
# Indirection

A kernel reads the rows of its left operand through a table of references, tap by tap and `mr` to a
tap. A reference is a position in the input arena, which the view shifts by a common offset, or it
stands for padding and reads the zero buffer, which no offset shifts.

## Words and numbers

Positions and offsets are machine words. Validation adds them up so that no sum is too large, and
stops at the greatest word instead; reading a row takes the plain sum. In this file all of them are
numbers without a bound, on which both do the same. That nothing is lost by it is proved next to the
validation.
-/

namespace QuantizedGemm

/-- One reference. -/
inductive IndirectRow where
  /-- The row that starts at a position of the input arena. -/
  | input (position : Nat)
  /-- Padding. -/
  | zero
  deriving DecidableEq, Repr

/-- The left operand of a kernel. -/
structure IndirectView where
  rows : Array IndirectRow
  input : Bytes
  zero : Bytes
  offset : Nat
  deriving DecidableEq

namespace IndirectView

variable (v : IndirectView)

/-- The buffer that a reference reads, and where in it the row starts. -/
def source : IndirectRow → Bytes × Nat
  | .input position => (v.input, position + v.offset)
  | .zero => (v.zero, 0)

/-- The name of the buffer that a reference reads. -/
def sourceName : IndirectRow → String
  | .input _ => "indirect input row"
  | .zero => "zero buffer"

/-- The bytes from the start of row `index` to the end of its buffer. There is no such row where the
table is too short or the row starts past the end. -/
def row? (index : Nat) : Option Bytes := do
  let r ← v.rows[index]?
  let (buffer, start) := v.source r
  if start ≤ buffer.size then some (buffer.extract start buffer.size) else none

/-- The number of bytes that a reference can read. -/
def available (r : IndirectRow) : Nat :=
  let (buffer, start) := v.source r
  buffer.size - start

/-- The first `kc` bytes of row `index`, if it has as many. -/
def fetch? (index kc : Nat) : Option Bytes := do
  let r ← v.rows[index]?
  let (buffer, start) := v.source r
  if start + kc ≤ buffer.size then some (buffer.extract start (start + kc)) else none

/-- The first `mr * ks` rows exist, and each has `kc` bytes. -/
def validate (mr ks kc : Nat) : Except Error Unit := do
  let required := mr * ks
  requireLength "indirection buffer" required v.rows.size
  match (v.rows.toList.take required).find? fun r ↦ decide (v.available r < kc) with
  | none => pure ()
  | some r => requireLength (sourceName r) kc (v.available r)

end IndirectView

end QuantizedGemm
