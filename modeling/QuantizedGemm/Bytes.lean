/-!
# Byte strings

Operands, packed weights and outputs are arrays of bytes. A word is stored with its low byte first.
-/

namespace QuantizedGemm

/-- A buffer of bytes. -/
abbrev Bytes := Array UInt8

/-- The low `width` bytes of `n`, low byte first. -/
def littleEndian : (width n : Nat) → List UInt8
  | 0, _ => []
  | width + 1, n => UInt8.ofNat n :: littleEndian width (n / 256)

/-- The number whose bytes are `bytes`, low byte first. -/
def ofLittleEndian (bytes : List UInt8) : Nat :=
  bytes.foldr (fun b n ↦ b.toNat + 256 * n) 0

namespace Bytes

/-- The byte at `i`; a position past the end reads as zero. -/
def at0 (b : Bytes) (i : Nat) : UInt8 := b.getD i 0

/-- The signed 32-bit word in the four bytes from `i` on. -/
def int32At (b : Bytes) (i : Nat) : Int32 :=
  (UInt32.ofNat (ofLittleEndian ((List.range 4).map fun k ↦ b.at0 (i + k)))).toInt32

/-- Replaces the bytes from `start` on by the first `count` bytes of `source`. -/
def overwrite (b : Bytes) (start count : Nat) (source : Nat → UInt8) : Bytes :=
  count.fold (fun j _ b ↦ b.setIfInBounds (start + j) (source j)) b

end Bytes

/-- The four bytes of a signed 32-bit word. -/
def int32Bytes (x : Int32) : List UInt8 := littleEndian 4 x.toUInt32.toNat

end QuantizedGemm
