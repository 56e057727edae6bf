import Mathlib.Tactic.Ring
import QuantizedGemm.Proofs.WrappingSum
import QuantizedGemm.Tile

/-!
# Positions of a tile

Two layouts meet in a tile: the order in which packed weights go through a reduction, and the places
at which outputs are stored.

## The packed order

Packed weights go through the reduction of a column in blocks, and enter each block at a group of
the column's own. Whatever the column, each position of the padded reduction comes up exactly once,
so that a sum along the packed order is the sum in order (`TileShape.sum_reductionIndex`).

## Output positions

Outputs are stored by row and column tile. Under `StridesDisjoint` they lie in the order of rows and
columns (`outputPosition_lt`), so that the positions of different outputs differ, and the columns of
one tile lie next to each other. That rows come first is no restriction: a single row has no
distance to keep, and neither has a single tile.
-/

namespace QuantizedGemm

open Finset

/-! ## Blocks -/

section Blocks

variable {n q : ℕ}

theorem le_roundUp (hq : 0 < q) : n ≤ roundUp n q := by
  have hdiv := Nat.div_add_mod (n + q - 1) q
  have hmod := Nat.mod_lt (n + q - 1) hq
  rw [roundUp, divideUp, Nat.mul_comm]
  omega

theorem div_lt_divideUp {k : ℕ} (hq : 0 < q) (hk : k < n) : k / q < divideUp n q := by
  rw [divideUp, Nat.div_lt_iff_lt_mul hq]
  exact hk.trans_le (le_roundUp hq)

theorem mul_lt_of_lt_divideUp {b : ℕ} (hq : 0 < q) (hb : b < divideUp n q) : b * q < n := by
  have hle : (b + 1) * q ≤ n + q - 1 := (Nat.le_div_iff_mul_le hq).mp hb
  rw [Nat.succ_mul] at hle
  omega

theorem block_add_lt {b r : ℕ} (hb : b < n) (hr : r < q) : b * q + r < n * q := by
  rw [Nat.mul_comm b]
  exact Nat.mul_add_lt_mul_of_lt_of_lt hb hr

theorem exists_block_add {k : ℕ} (h : k < n * q) : ∃ b < n, ∃ r < q, b * q + r = k := by
  have hq : 0 < q := Nat.pos_of_mul_pos_left (Nat.zero_lt_of_lt h)
  exact ⟨k / q, (Nat.div_lt_iff_lt_mul hq).mpr h, k % q, Nat.mod_lt k hq, Nat.div_add_mod' k q⟩

theorem block_add_div {b r : ℕ} (hr : r < q) : (b * q + r) / q = b := by
  rw [Nat.mul_comm b, Nat.mul_add_div (by omega), Nat.div_eq_of_lt hr, Nat.add_zero]

theorem block_add_mod {b r : ℕ} (hr : r < q) : (b * q + r) % q = r := by
  rw [Nat.mul_add_mod', Nat.mod_eq_of_lt hr]

theorem div_mul_add_mod_inj {a b r s d : ℕ} (hr : r < d) (hs : s < d)
    (h : a * d + r = b * d + s) : a = b ∧ r = s := by
  have hdiv := congrArg (· / d) h
  have hmod := congrArg (· % d) h
  simp only [block_add_div hr, block_add_div hs] at hdiv
  simp only [block_add_mod hr, block_add_mod hs] at hmod
  exact ⟨hdiv, hmod⟩

theorem roundDown_block_add {b r : ℕ} (hr : r < q) : roundDown (b * q + r) q = b * q := by
  rw [roundDown, block_add_mod hr, Nat.add_sub_cancel]

end Blocks

namespace TileShape

variable (t : TileShape)

/-! ## The packed order of a reduction -/

section Reduction

variable {t}

theorem kBlock_pos (hkr : 0 < t.kr) (hsr : 0 < t.sr) : 0 < t.kBlock := Nat.mul_pos hkr hsr

theorem le_paddedDepth (hkr : 0 < t.kr) (hsr : 0 < t.sr) (kc : ℕ) : kc ≤ t.paddedDepth kc :=
  le_roundUp (kBlock_pos hkr hsr)

theorem steps_eq (hkr : 0 < t.kr) (kc : ℕ) : t.steps kc = divideUp kc t.kBlock * t.sr := by
  have hdepth : t.paddedDepth kc = divideUp kc t.kBlock * t.sr * t.kr := by
    rw [paddedDepth, roundUp, kBlock]
    ring
  rw [steps, hdepth, Nat.mul_div_cancel _ hkr]

theorem steps_mul (hkr : 0 < t.kr) (kc : ℕ) : t.steps kc * t.kr = t.paddedDepth kc := by
  rw [steps_eq hkr, paddedDepth, roundUp, kBlock]
  ring

/-- Counted by block, a step of a column stays in its block. -/
theorem reductionIndex_block {step : ℕ} (hkr : 0 < t.kr) (hstep : step < t.sr)
    (block j lane : ℕ) :
    t.reductionIndex (block * t.sr + step) j lane =
      block * t.kBlock + (step * t.kr + lane + j * t.kr) % t.kBlock := by
  have hlt : step * t.kr < t.kBlock := by
    rw [kBlock, Nat.mul_comm t.kr]
    exact Nat.mul_lt_mul_of_pos_right hstep hkr
  have hstart : (block * t.sr + step) * t.kr = block * t.kBlock + step * t.kr := by
    rw [kBlock]
    ring
  rw [reductionIndex, hstart, roundDown_block_add hlt,
    show block * t.kBlock + step * t.kr + lane + j * t.kr =
      block * t.kBlock + (step * t.kr + lane + j * t.kr) by ring, Nat.mul_add_mod']

end Reduction

variable {M : Type*} [AddCommMonoid M]

/-- A column goes through a block from one of its groups on and comes round. -/
theorem sum_block (j base : ℕ) (F : ℕ → M) :
    ∑ step ∈ range t.sr, ∑ lane ∈ range t.kr,
        F (base + (step * t.kr + lane + j * t.kr) % t.kBlock) =
      ∑ r ∈ range t.kBlock, F (base + r) := by
  rw [sum_range_blocks t.sr t.kr fun r ↦ F (base + (r + j * t.kr) % t.kBlock),
    Nat.mul_comm t.sr t.kr]
  exact sum_range_rotate t.kBlock (j * t.kr) fun r ↦ F (base + r)

theorem sum_blocks (kc j : ℕ) (F : ℕ → M) :
    ∑ block ∈ range (divideUp kc t.kBlock), ∑ step ∈ range t.sr, ∑ lane ∈ range t.kr,
        F (block * t.kBlock + (step * t.kr + lane + j * t.kr) % t.kBlock) =
      ∑ k ∈ range (t.paddedDepth kc), F k := by
  simp only [sum_block]
  exact sum_range_blocks _ _ F

/-- The packed order of a column visits every position of the padded reduction once. -/
theorem sum_reductionIndex (hkr : 0 < t.kr) (kc j : ℕ) (F : ℕ → M) :
    ∑ step ∈ range (t.steps kc), ∑ lane ∈ range t.kr, F (t.reductionIndex step j lane) =
      ∑ k ∈ range (t.paddedDepth kc), F k := by
  rw [steps_eq hkr, ← sum_blocks t kc j F,
    ← sum_range_blocks _ _ fun step ↦ ∑ lane ∈ range t.kr, F (t.reductionIndex step j lane)]
  refine sum_congr rfl fun block _ ↦ sum_congr rfl fun step hstep ↦ sum_congr rfl fun lane _ ↦ ?_
  rw [reductionIndex_block hkr (mem_range.mp hstep)]

/-- Positions past the end of the reduction may be left out, where they add nothing. -/
theorem sum_paddedDepth {t : TileShape} (hkr : 0 < t.kr) (hsr : 0 < t.sr) {kc : ℕ} {F : ℕ → M}
    (hpad : ∀ k, kc ≤ k → F k = 0) : ∑ k ∈ range (t.paddedDepth kc), F k = ∑ k ∈ range kc, F k :=
  sum_range_eq_of_le (le_paddedDepth hkr hsr kc) hpad

end TileShape

/-! ## Output positions -/

/-- An output whose column tiles do not reach into one another, and whose rows do not either. -/
def StridesDisjoint (m n nr cmStride cnStride : ℕ) : Prop :=
  (nr ≤ cnStride ∨ n ≤ nr) ∧ ((n - 1) / nr * cnStride + (n - 1) % nr + 1 ≤ cmStride ∨ m = 1)

section Output

variable {m n nr cm cn : ℕ}

/-- Where column `j` lies in its row. -/
private def columnPosition (nr cn j : ℕ) : ℕ := j / nr * cn + j % nr

private theorem columnPosition_of_lt {j : ℕ} (hj : j < nr) : columnPosition nr cn j = j := by
  rw [columnPosition, Nat.div_eq_of_lt hj, Nat.mod_eq_of_lt hj, Nat.zero_mul, Nat.zero_add]

/-- Columns of one tile lie next to each other, and a tile ends before the next one starts. -/
private theorem columnPosition_lt (h : nr ≤ cn ∨ n ≤ nr) {j j' : ℕ} (hlt : j < j') (hj' : j' < n) :
    columnPosition nr cn j < columnPosition nr cn j' := by
  rcases h with hcn | hn
  · rcases (Nat.div_le_div_right hlt.le : j / nr ≤ j' / nr).lt_or_eq with htile | htile
    · rcases nr.eq_zero_or_pos with rfl | hnr
      · simp at htile
      · have hstep : (j / nr + 1) * cn ≤ j' / nr * cn := Nat.mul_le_mul_right cn htile
        have hmod := Nat.mod_lt j hnr
        rw [Nat.succ_mul] at hstep
        unfold columnPosition
        omega
    · have hdiv := Nat.div_add_mod j nr
      have hdiv' := Nat.div_add_mod j' nr
      rw [htile] at hdiv
      rw [columnPosition, columnPosition, htile]
      omega
  · rwa [columnPosition_of_lt (hlt.trans (hj'.trans_le hn)), columnPosition_of_lt (hj'.trans_le hn)]

private theorem columnPosition_le (h : nr ≤ cn ∨ n ≤ nr) {j : ℕ} (hj : j < n) :
    columnPosition nr cn j ≤ (n - 1) / nr * cn + (n - 1) % nr := by
  rcases (by omega : j < n - 1 ∨ j = n - 1) with hlt | rfl
  · exact (columnPosition_lt h hlt (by omega)).le
  · exact le_rfl

/-- Disjoint strides keep the outputs in order, row by row. -/
theorem outputPosition_lt (h : StridesDisjoint m n nr cm cn) {i i' j j' : ℕ} (hi' : i' < m)
    (hj : j < n) (hj' : j' < n) (hlex : i < i' ∨ i = i' ∧ j < j') :
    outputPosition nr cm cn i j < outputPosition nr cm cn i' j' := by
  obtain ⟨hcols, hrows⟩ := h
  have hposition : ∀ i j, outputPosition nr cm cn i j = i * cm + columnPosition nr cn j :=
    fun _ _ ↦ Nat.add_assoc ..
  rw [hposition, hposition]
  rcases hlex with hlt | ⟨rfl, hlt⟩
  · -- there is more than one row, so a row ends before the next one starts
    have hcm : (n - 1) / nr * cn + (n - 1) % nr + 1 ≤ cm := hrows.resolve_right (by omega)
    have hcol := columnPosition_le hcols hj
    have hstep : (i + 1) * cm ≤ i' * cm := Nat.mul_le_mul_right cm hlt
    rw [Nat.succ_mul] at hstep
    omega
  · exact Nat.add_lt_add_left (columnPosition_lt hcols hlt hj') _

theorem outputPosition_inj (h : StridesDisjoint m n nr cm cn) {i i' j j' : ℕ} (hi : i < m)
    (hi' : i' < m) (hj : j < n) (hj' : j' < n)
    (heq : outputPosition nr cm cn i j = outputPosition nr cm cn i' j') : i = i' ∧ j = j' := by
  by_contra hne
  -- of two different outputs one comes first
  rcases (by omega : (i < i' ∨ i = i' ∧ j < j') ∨ i' < i ∨ i' = i ∧ j' < j) with hlex | hlex
  · exact (outputPosition_lt h hi' hj hj' hlex).ne heq
  · exact (outputPosition_lt h hi hj' hj hlex).ne' heq

theorem outputPosition_lt_outputLength (h : nr ≤ cn ∨ n ≤ nr) {i j : ℕ} (hi : i < m)
    (hj : j < n) : outputPosition nr cm cn i j < outputLength m n nr cm cn := by
  have hrow : i * cm ≤ (m - 1) * cm := Nat.mul_le_mul_right cm (by omega)
  have hcol := columnPosition_le h hj
  rw [outputLength, if_neg (by omega), outputPosition]
  unfold columnPosition at hcol
  omega

theorem outputPosition_tile {tile l : ℕ} (hl : l < nr) (i : ℕ) :
    outputPosition nr cm cn i (tile * nr + l) = tile * cn + i * cm + l := by
  rw [outputPosition, block_add_div hl, block_add_mod hl]
  ring

end Output

end QuantizedGemm
