import QuantizedGemm.Bytes
import QuantizedGemm.Error

/-!
# Checked operations

Most arithmetic of this library is meant to wrap around: accumulators and bias words are sums modulo
`2 ^ 32`, and vector lanes wrap or saturate as their unit does.

## What is checked

Everything else is meant to have room. A plain operation on machine integers whose result has none
is a fault, never a wrapped number, and so is an access past the end of a buffer. Computations with
such operations return `Except Fault`. Sizes, positions and strides are natural numbers without a
bound, so that they have nothing to check.
-/

namespace QuantizedGemm

/-! ## Arithmetic -/

/-- An integer as a signed 32-bit integer, if it has room. -/
def fit32 (n : Int) : Except Fault Int32 :=
  if -2147483648 ≤ n ∧ n ≤ 2147483647 then .ok (Int32.ofInt n) else .error .overflow

/-- An integer as a signed 64-bit integer, if it has room. -/
def fit64 (n : Int) : Except Fault Int64 :=
  if -9223372036854775808 ≤ n ∧ n ≤ 9223372036854775807 then .ok (Int64.ofInt n)
  else .error .overflow

def checkedAdd (a b : Int32) : Except Fault Int32 := fit32 (a.toInt + b.toInt)

def checkedSub (a b : Int32) : Except Fault Int32 := fit32 (a.toInt - b.toInt)

def checkedMul (a b : Int32) : Except Fault Int32 := fit32 (a.toInt * b.toInt)

def checkedAdd64 (a b : Int64) : Except Fault Int64 := fit64 (a.toInt + b.toInt)

def checkedMul64 (a b : Int64) : Except Fault Int64 := fit64 (a.toInt * b.toInt)

/-- A shift to the right by less than the width of the number. -/
def checkedShiftRight64 (a : Int64) (shift : Nat) : Except Fault Int64 :=
  if shift < 64 then .ok (a >>> Int64.ofNat shift) else .error .overflow

/-! ## Reads and writes -/

def readAt {α : Type} (a : Array α) (i : Nat) : Except Fault α :=
  match a[i]? with
  | some x => .ok x
  | none => .error .outOfBounds

/-- Replaces an entry of an array. -/
def writeAt {α : Type} (a : Array α) (i : Nat) (x : α) : Except Fault (Array α) :=
  if i < a.size then .ok (a.setIfInBounds i x) else .error .outOfBounds

/-- The signed 32-bit word in the four bytes from `i` on. -/
def Bytes.readInt32 (b : Bytes) (i : Nat) : Except Fault Int32 :=
  if i + 4 ≤ b.size then .ok (b.int32At i) else .error .outOfBounds

/-! ## Loops -/

/-- The sum of `f 0`, …, `f (n - 1)`, which wraps around. The first fault ends it. -/
@[inline] def sumEach (n : Nat) (f : Nat → Except Fault Int32) : Except Fault Int32 :=
  (List.range n).foldlM (fun s i ↦ do pure (s + (← f i))) 0

/-- The array of `f 0`, …, `f (n - 1)`. -/
def tabulate {α : Type} (n : Nat) (f : Nat → Except Fault α) : Except Fault (Array α) := do
  pure (← (List.range n).mapM f).toArray

end QuantizedGemm
