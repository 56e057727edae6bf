import QuantizedGemm.Oracle

/-!
# Tampering with a kernel

A kernel that goes wrong in one call, to find out what a test makes of it. The kernel itself runs
first, and where it fails its failure stands.
-/

namespace QuantizedGemm

/-- What happens to a call. -/
inductive Tamper where
  /-- The call is refused for want of a variant. -/
  | refuse
  /-- A byte of the output is replaced. The position is taken modulo the length of the output. -/
  | setByte (position : Nat) (value : UInt8)
  /-- Bits of a byte of the output are flipped. -/
  | flipBits (position : Nat) (mask : UInt8)
  deriving DecidableEq, Repr

namespace Tamper

/-- Changes one byte of the output. -/
def changeByte (position : Nat) (change : UInt8 → UInt8) : EStateM Failure Bytes Unit := do
  let size := (← get).size
  if size = 0 then throw (.fault .divisionByZero)
  else modify fun c ↦ c.setIfInBounds (position % size) (change (c.at0 (position % size)))

/-- Acts on the output of a call. -/
def act : Tamper → EStateM Failure Bytes Unit
  | refuse => throw (.refused (.kernel .noProvider))
  | setByte position value => changeByte position fun _ ↦ value
  | flipBits position mask => changeByte position fun b ↦ b ^^^ mask

/-- A kernel that is tampered with in the call of a given number. -/
def wrap (tamper : Tamper) (target : Nat) (k : Kernel) : Nat → Kernel := fun number call ↦ do
  k call
  if number = target then tamper.act else pure ()

end Tamper

end QuantizedGemm
