import QuantizedGemm.Binary.Arithmetic
import QuantizedGemm.Checked
import QuantizedGemm.Quantization.Args

/-!
# Vector lanes

The operations of 128-bit and 256-bit vector units that the vector kernels are made of, each on
vectors of typed lanes. Lane 0 is the lowest one. Operations on 256 bits that move lanes do so in
the two halves separately, unless they are permutations of the whole.

## Wrapping and saturating

Lanes add and multiply modulo their width. Narrowing saturates, and so does the conversion from
floating point, in its own way: whatever does not fit, and what is no number, becomes the least
integer. No operation on lanes faults.

## Loads

A load of whole vectors is within bounds or a fault. The end of a row is loaded through a buffer of
zeros, so that nothing behind the row is read.
-/

namespace QuantizedGemm.Lanes

/-! ## Loads -/

def load16 (b : Bytes) (i : Nat) : Vector UInt8 16 := Vector.ofFn fun l ↦ b.at0 (i + l)

/-- Eight bytes of a row of `kc` bytes, from position `k` on, with zeros past its end and in the
upper half. -/
def loadPadded (row : Nat → UInt8) (kc k : Nat) : Vector UInt8 16 :=
  Vector.ofFn fun l ↦ if l.val < 8 ∧ k + l < kc then row (k + l) else 0

/-- `load16` of bytes that are all there. -/
def read16 (b : Bytes) (i : Nat) : Except Fault (Vector UInt8 16) :=
  if i + 16 ≤ b.size then .ok (load16 b i) else .error .outOfBounds

def readPadded (row : Bytes) (kc k : Nat) : Except Fault (Vector UInt8 16) :=
  if k + min 8 (kc - k) ≤ row.size then .ok (loadPadded row.at0 kc k) else .error .outOfBounds

/-- A word in lane 0, and zeros. -/
def lowWord {n : Nat} (x : Int32) : Vector Int32 n :=
  Vector.ofFn fun l ↦ if l.val = 0 then x else 0

/-- Two words in the lanes 0 of both halves, and zeros. -/
def lowWords (lo hi : Int32) : Vector Int32 8 :=
  Vector.ofFn fun l ↦ if l.val = 0 then lo else if l.val = 4 then hi else 0

/-! ## Widening -/

/-- The lower halves, lane by lane in turn. -/
def interleaveLow8 (a b : Vector UInt8 16) : Vector UInt8 16 :=
  Vector.ofFn fun l ↦
    if l.val % 2 = 0 then a.get ⟨l / 2, by omega⟩ else b.get ⟨l / 2, by omega⟩

/-- The upper halves, lane by lane in turn. -/
def interleaveHigh8 (a b : Vector UInt8 16) : Vector UInt8 16 :=
  Vector.ofFn fun l ↦
    if l.val % 2 = 0 then a.get ⟨8 + l / 2, by omega⟩ else b.get ⟨8 + l / 2, by omega⟩

/-- Pairs of bytes as lanes of 16 bits, the lower byte first. -/
def pairs16 (a : Vector UInt8 16) : Vector Int16 8 :=
  Vector.ofFn fun l ↦
    Int16.ofNat ((a.get ⟨2 * l, by omega⟩).toNat + 256 * (a.get ⟨2 * l + 1, by omega⟩).toNat)

/-- The lower eight bytes as lanes of 16 bits. -/
def widenLow (a : Vector UInt8 16) : Vector Int16 8 :=
  Vector.ofFn fun l ↦ Int16.ofNat (a.get ⟨l, by omega⟩).toNat

/-- Sixteen bytes as lanes of 16 bits. -/
def widen (a : Vector UInt8 16) : Vector Int16 16 := a.map fun b ↦ Int16.ofNat b.toNat

/-- The lower eight bytes in both halves. -/
def repeatLow8 (a : Vector UInt8 16) : Vector UInt8 16 :=
  Vector.ofFn fun l ↦ a.get ⟨l % 8, by omega⟩

/-! ## Integer arithmetic -/

variable {n : Nat}

/-- The difference of lanes of 16 bits, wrapping. -/
def sub16 (a b : Vector Int16 n) : Vector Int16 n := Vector.zipWith (· - ·) a b

/-- The sum of lanes of 32 bits, wrapping. -/
def add32 (a b : Vector Int32 n) : Vector Int32 n := Vector.zipWith (· + ·) a b

/-- The products of neighbouring lanes in 32 bits, added in pairs. -/
def multiplyAdd (a b : Vector Int16 (2 * n)) : Vector Int32 n :=
  Vector.ofFn fun l ↦
    (a.get ⟨2 * l, by omega⟩).toInt32 * (b.get ⟨2 * l, by omega⟩).toInt32 +
      (a.get ⟨2 * l + 1, by omega⟩).toInt32 * (b.get ⟨2 * l + 1, by omega⟩).toInt32

/-- The sum of lanes of 16 bits, held at the ends of their range. -/
def addSaturating16 (a b : Vector Int16 n) : Vector Int16 n :=
  Vector.zipWith (fun x y ↦ Int16.ofInt (min (max (x.toInt + y.toInt) (-32768)) 32767)) a b

/-- The greater of two bytes, lane by lane. -/
def max8 (a b : Vector UInt8 n) : Vector UInt8 n :=
  Vector.zipWith (fun x y ↦ if x < y then y else x) a b

/-! ## Moving lanes of 32 bits -/

def fourOf {α : Type} (f : Fin 4 → Except Fault α) : Except Fault (Vector α 4) := do
  pure #v[← f 0, ← f 1, ← f 2, ← f 3]

def combineFour {α β : Type} (g : α → α → α → α → β) (v : Vector α 4) : β :=
  g (v.get 0) (v.get 1) (v.get 2) (v.get 3)

/-- The lower halves, lane by lane in turn. -/
def interleaveLow32 (a b : Vector Int32 4) : Vector Int32 4 := #v[a[0], b[0], a[1], b[1]]

/-- The upper halves, lane by lane in turn. -/
def interleaveHigh32 (a b : Vector Int32 4) : Vector Int32 4 := #v[a[2], b[2], a[3], b[3]]

/-- Sums of neighbouring lanes, those of the first operand below. -/
def addPairs32 (a b : Vector Int32 4) : Vector Int32 4 :=
  #v[a[0] + a[1], a[2] + a[3], b[0] + b[1], b[2] + b[3]]

/-- Sums of neighbouring lanes, in each half those of the first operand below. -/
def addPairs32Wide (a b : Vector Int32 8) : Vector Int32 8 :=
  #v[a[0] + a[1], a[2] + a[3], b[0] + b[1], b[2] + b[3],
    a[4] + a[5], a[6] + a[7], b[4] + b[5], b[6] + b[7]]

/-- Every lane from where the permutation says. -/
def permute32 (a : Vector Int32 8) (source : Vector (Fin 8) 8) : Vector Int32 8 :=
  source.map fun l ↦ a.get l

/-! ## Narrowing -/

/-- A 32-bit integer, held at the ends of the range of 16 bits. -/
def narrow16 (x : Int32) : Int16 := Int16.ofInt (min (max x.toInt (-32768)) 32767)

/-- A 16-bit integer, held at the ends of the range of a byte. -/
def narrow8 (x : Int16) : UInt8 := UInt8.ofInt (min (max x.toInt 0) 255)

/-- Lanes narrowed to 16 bits, those of the first operand below. -/
def pack32 (a b : Vector Int32 4) : Vector Int16 8 := (a ++ b).map narrow16

/-- Lanes narrowed to 16 bits, in each half those of the first operand below. -/
def pack32Wide (a b : Vector Int32 8) : Vector Int16 16 :=
  Vector.ofFn fun l ↦
    let lane : Fin 8 := ⟨l / 8 * 4 + l % 4, by omega⟩
    narrow16 (if l.val % 8 < 4 then a.get lane else b.get lane)

/-- Quarters of four lanes each, in the order 0, 2, 1, 3. -/
def swapMiddleQuarters (a : Vector Int16 16) : Vector Int16 16 :=
  Vector.ofFn fun l ↦
    let quarter := l.val / 4
    if quarter = 1 then a.get ⟨8 + l % 4, by omega⟩
    else if quarter = 2 then a.get ⟨4 + l % 4, by omega⟩
    else a.get l

/-- The lower eight lanes. -/
def lowHalf (a : Vector Int16 16) : Vector Int16 8 := Vector.ofFn fun l ↦ a.get ⟨l, by omega⟩

/-- The upper eight lanes. -/
def highHalf (a : Vector Int16 16) : Vector Int16 8 := Vector.ofFn fun l ↦ a.get ⟨8 + l, by omega⟩

/-- Lanes narrowed to bytes, those of the first operand below. -/
def pack16 (a b : Vector Int16 8) : Vector UInt8 16 := (a ++ b).map narrow8

/-! ## The floating-point part of the output stage -/

/-- Converts, multiplies by the scale, holds at the upper bound and rounds to the nearest integer,
lane by lane. -/
def scaleLanes (scale bound : Binary32) (a : Vector Int32 n) : Vector Int32 n :=
  a.map fun x ↦ ((int32ToBinary x * scale).laneMin bound).toInt32Indefinite

end QuantizedGemm.Lanes
