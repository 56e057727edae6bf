import Mathlib.Algebra.BigOperators.Fin
import Mathlib.Algebra.Group.Fin.Basic
import Mathlib.Algebra.Order.Ring.Int
import QuantizedGemm.Quantization.Args
import QuantizedGemm.WrappingSum

/-!
# Wrapping sums as integers that wrap

Reducing an integer to 32 bits commutes with sums, differences and products, so that every wrapping
expression is an integer expression, reduced once (`sumBelow_eq_ofInt`).

## Regrouping

Regrouping and reordering happen among integers. A sum over positions may be counted in blocks
(`Finset.sum_range_blocks`), entered in the middle of a block (`Finset.sum_range_rotate`) and go on
past its end where it adds nothing (`Finset.sum_range_eq_of_le`). The packed order of a reduction
does all three.
-/

namespace QuantizedGemm

open Finset

/-! ## Reduction to 32 bits -/

theorem byteToInt32_eq (b : UInt8) : byteToInt32 b = Int32.ofInt b.toNat := by
  rw [byteToInt32, Int32.ofInt_eq_ofNat]

@[simp] theorem toInt_byteToInt32 (b : UInt8) : (byteToInt32 b).toInt = b.toNat :=
  Int32.toInt_ofNat_of_lt (b.toNat_lt.trans (by decide))

theorem sumBelow_congr {n : ℕ} {f g : ℕ → Int32} (h : ∀ i < n, f i = g i) :
    sumBelow n f = sumBelow n g := by
  induction n with
  | zero => rfl
  | succ n ih =>
    rw [sumBelow_succ, sumBelow_succ, ih fun i hi ↦ h i (hi.trans n.lt_succ_self),
      h n n.lt_succ_self]

/-- A sum of reduced integers is their sum, reduced. -/
theorem sumBelow_ofInt (n : ℕ) (g : ℕ → ℤ) :
    sumBelow n (fun i ↦ Int32.ofInt (g i)) = Int32.ofInt (∑ i ∈ range n, g i) := by
  induction n with
  | zero => rfl
  | succ n ih => rw [sumBelow_succ, ih, sum_range_succ, Int32.ofInt_add]

/-- The form in which the summands of a kernel are read as integers. -/
theorem sumBelow_eq_ofInt {n : ℕ} {f : ℕ → Int32} {g : ℕ → ℤ}
    (h : ∀ i < n, f i = Int32.ofInt (g i)) :
    sumBelow n f = Int32.ofInt (∑ i ∈ range n, g i) :=
  (sumBelow_congr h).trans (sumBelow_ofInt n g)

end QuantizedGemm

namespace Finset

/-! ## Regrouping -/

variable {M : Type*} [AddCommMonoid M]

theorem sum_range_blocks (blocks size : ℕ) (f : ℕ → M) :
    ∑ b ∈ range blocks, ∑ r ∈ range size, f (b * size + r) = ∑ k ∈ range (blocks * size), f k := by
  induction blocks with
  | zero => simp
  | succ b ih => rw [sum_range_succ, ih, Nat.succ_mul, sum_range_add]

/-- A block may be entered anywhere, if it is gone round. -/
theorem sum_range_rotate (n c : ℕ) (f : ℕ → M) :
    ∑ r ∈ range n, f ((r + c) % n) = ∑ r ∈ range n, f r := by
  rcases n.eq_zero_or_pos with rfl | hn
  · rfl
  · have : NeZero n := ⟨hn.ne'⟩
    have hshift := Equiv.sum_comp (Equiv.addRight (Fin.ofNat n c)) fun r ↦ f r.val
    simpa [sum_range, Fin.val_add] using hshift

theorem sum_range_eq_of_le {m n : ℕ} {f : ℕ → M} (hmn : m ≤ n) (h : ∀ k, m ≤ k → f k = 0) :
    ∑ k ∈ range n, f k = ∑ k ∈ range m, f k := by
  obtain ⟨d, rfl⟩ := Nat.exists_eq_add_of_le hmn
  rw [sum_range_add, sum_eq_zero (s := range d) fun i _ ↦ h (m + i) (m.le_add_right i), add_zero]

end Finset
