import Mathlib.Tactic.Ring
import QuantizedGemm.Bytes

/-!
# Reading what was written

A byte string is read position by position. Main statements: an overwritten range holds the new
bytes and nothing else changes (`Bytes.getElem?_overwrite`), blocks of one length that are laid out
one after the other are found at multiples of the length (`List.getElem?_flatMap_range`), and the
bytes of a word read as the word (`Bytes.int32At_eq_of_bytes`).

## Positions and not slices

Layouts are nested: bias words and steps in tiles, tiles in a filter. Taking a layout apart into
slices would need an equation for every level. A position instead is an index of a block and a place
in the block, level by level, and the lemma on blocks is applied once for each of them.
-/

/-! ## Blocks of one length -/

namespace List

variable {α : Type*} {f : ℕ → List α} {size : ℕ}

theorem length_flatMap_range {n : ℕ} (hf : ∀ b < n, (f b).length = size) :
    ((range n).flatMap f).length = n * size := by
  induction n with
  | zero => simp
  | succ n ih =>
    rw [range_succ, flatMap_append, length_append, ih fun b hb ↦ hf b (by omega), Nat.succ_mul]
    simp [hf n n.lt_succ_self]

/-- Place `r` of block `b` is at `b * size + r`. -/
theorem getElem?_flatMap_range {n : ℕ} (hf : ∀ b < n, (f b).length = size) {b r : ℕ}
    (hb : b < n) (hr : r < size) :
    ((range n).flatMap f)[b * size + r]? = (f b)[r]? := by
  induction n with
  | zero => omega
  | succ n ih =>
    have hlength := length_flatMap_range fun b hb ↦ hf b (Nat.lt_succ_of_lt hb)
    rw [range_succ, flatMap_append]
    rcases Nat.lt_succ_iff_lt_or_eq.mp hb with hlt | rfl
    · have hle : (b + 1) * size ≤ n * size := Nat.mul_le_mul_right size hlt
      rw [Nat.succ_mul] at hle
      rw [getElem?_append_left (by omega), ih (fun b hb ↦ hf b (by omega)) hlt]
    · rw [getElem?_append_right (by omega), hlength, Nat.add_sub_cancel_left]
      simp

end List

namespace QuantizedGemm

/-! ## Words -/

@[simp] theorem length_littleEndian (width n : ℕ) : (littleEndian width n).length = width := by
  induction width generalizing n with
  | zero => rfl
  | succ width ih => rw [littleEndian, List.length_cons, ih]

@[simp] theorem length_int32Bytes (x : Int32) : (int32Bytes x).length = 4 :=
  length_littleEndian 4 _

@[simp] theorem ofLittleEndian_littleEndian (width n : ℕ) :
    ofLittleEndian (littleEndian width n) = n % 256 ^ width := by
  induction width generalizing n with
  | zero => rw [pow_zero, Nat.mod_one]; rfl
  | succ width ih =>
    have hstep : ofLittleEndian (littleEndian (width + 1) n) =
        (UInt8.ofNat n).toNat + 256 * ofLittleEndian (littleEndian width (n / 256)) := rfl
    rw [hstep, ih, UInt8.toNat_ofNat', show 256 ^ (width + 1) = 256 * 256 ^ width from
      Nat.pow_succ', Nat.mod_mul]

namespace Bytes

variable (b : Bytes)

theorem at0_eq (i : ℕ) : b.at0 i = b[i]?.getD 0 := Array.getD_eq_getD_getElem? ..

theorem at0_eq_of_getElem? {b : Bytes} {i : ℕ} {x : UInt8} (h : b[i]? = some x) : b.at0 i = x := by
  rw [at0_eq, h, Option.getD_some]

theorem int32At_eq_of_bytes {b : Bytes} {i : ℕ} {x : Int32}
    (h : ∀ k < 4, b[i + k]? = (int32Bytes x)[k]?) : b.int32At i = x := by
  have hbytes : (List.range 4).map (fun k ↦ b.at0 (i + k)) = int32Bytes x := by
    refine List.ext_getElem (by simp) fun k h₁ h₂ ↦ ?_
    have hk : k < 4 := by simpa using h₂
    rw [List.getElem_map, List.getElem_range,
      at0_eq_of_getElem? ((h k hk).trans (List.getElem?_eq_getElem h₂))]
  have hlt : x.toUInt32.toNat < 256 ^ 4 := x.toUInt32.toNat_lt
  rw [int32At, hbytes, int32Bytes, ofLittleEndian_littleEndian, Nat.mod_eq_of_lt hlt,
    UInt32.ofNat_toNat]
  rfl

theorem int32At_congr {b b' : Bytes} {i i' : ℕ} (h : ∀ k < 4, b.at0 (i + k) = b'.at0 (i' + k)) :
    b.int32At i = b'.int32At i' := by
  rw [int32At, int32At, List.map_congr_left fun k hk ↦ h k (List.mem_range.mp hk)]

/-! ## Overwriting -/

variable (start : ℕ) (source : ℕ → UInt8)

theorem overwrite_succ (count : ℕ) :
    b.overwrite start (count + 1) source =
      (b.overwrite start count source).setIfInBounds (start + count) (source count) := by
  rw [overwrite, Nat.fold_succ]
  rfl

@[simp] theorem size_overwrite (count : ℕ) : (b.overwrite start count source).size = b.size := by
  induction count with
  | zero => rfl
  | succ count ih => rw [overwrite_succ, Array.size_setIfInBounds, ih]

theorem getElem?_overwrite (count k : ℕ) :
    (b.overwrite start count source)[k]? =
      if start ≤ k ∧ k < start + count ∧ k < b.size then some (source (k - start)) else b[k]? := by
  induction count with
  | zero => rw [if_neg (by omega)]; rfl
  | succ count ih =>
    rw [overwrite_succ, Array.getElem?_setIfInBounds, size_overwrite, ih]
    -- the last byte decides its own position only
    rcases eq_or_ne (start + count) k with rfl | hne
    · by_cases hsize : start + count < b.size
      · rw [if_pos rfl, if_pos hsize, if_pos (by omega), Nat.add_sub_cancel_left]
      · rw [if_pos rfl, if_neg hsize, if_neg (by omega), Array.getElem?_eq_none (by omega)]
    · rw [if_neg hne]
      congr 1
      exact propext (by omega)

theorem getElem?_overwrite_of_ne {count k : ℕ} (h : ∀ j < count, k ≠ start + j) :
    (b.overwrite start count source)[k]? = b[k]? := by
  refine (getElem?_overwrite ..).trans (if_neg ?_)
  rintro ⟨hle, hlt, -⟩
  exact h (k - start) (by omega) (by omega)

theorem overwrite_congr {source source' : ℕ → UInt8} {count : ℕ}
    (h : ∀ j < count, source j = source' j) :
    b.overwrite start count source = b.overwrite start count source' := by
  induction count with
  | zero => rfl
  | succ count ih =>
    rw [overwrite_succ, overwrite_succ, ih fun j hj ↦ h j (by omega), h count count.lt_succ_self]

end Bytes

end QuantizedGemm
