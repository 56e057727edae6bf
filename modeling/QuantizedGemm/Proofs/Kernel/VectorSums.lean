import Mathlib.Tactic.FinCases
import Mathlib.Tactic.IntervalCases
import QuantizedGemm.Proofs.Kernel.Portable
import QuantizedGemm.Proofs.Kernel.VectorStage

/-!
# The sums of the vector kernels

On complete operands every load of a vector kernel is within its buffer, and each lane of a row
arrives at an accumulator of the portable kernel (`FourColumn.exists_rowSums`,
`EightColumn.exists_rowSums`), for weights that need not come from any packing.

## The invariant

A vector kernel keeps the accumulator of a column spread over four lanes. The sum of these four
lanes is the invariant: it starts as the bias word, every block adds the eight terms that the
portable kernel adds (`FourColumn.exists_addBlock`, `EightColumn.exists_addBlock`), and the shuffles
at the end of a tile compute it for all columns at once.

## Loads

A block of weights is loaded as a whole, with the padding of the reduction. It lies in the packed
tile because the reduction is padded to whole blocks (`TileShape.blockEnd_le`). A block of
activations stops at the end of its row.

## What a weight counts for

A vector kernel takes the zero point off in 16 bits. Where the zero point is no byte this may wrap,
so that a weight counts for what these 16 bits say (`SimdParams.weightValue`).
-/

namespace QuantizedGemm

open Lanes

namespace Lanes

/-! ## Widened bytes -/

@[simp] theorem toInt_ofNat_byte (b : UInt8) : (Int16.ofNat b.toNat).toInt = b.toNat :=
  Int16.toInt_ofNat_of_lt (b.toNat_lt.trans (by norm_num))

theorem toInt32_byte (b : UInt8) : (Int16.ofNat b.toNat).toInt32 = byteToInt32 b := by
  rw [← Int32.toInt_inj, Int16.toInt_toInt32, toInt_ofNat_byte, byteToInt32,
    Int32.toInt_ofNat_of_lt (b.toNat_lt.trans (by norm_num))]

theorem toInt32_byte_sub (b z : UInt8) :
    (Int16.ofNat b.toNat - Int16.ofNat z.toNat).toInt32 = byteToInt32 b - byteToInt32 z := by
  have hb := b.toNat_lt
  have hz := z.toNat_lt
  have hsub : (Int16.ofNat b.toNat - Int16.ofNat z.toNat).toInt = b.toNat - z.toNat := by
    rw [Int16.toInt_sub, toInt_ofNat_byte, toInt_ofNat_byte]
    exact Int.bmod_eq_of_le (by omega) (by omega)
  rw [← Int32.ofInt_toInt (Int16.toInt32 _), Int16.toInt_toInt32, hsub, Int32.ofInt_sub,
    byteToInt32_eq, byteToInt32_eq]

@[simp] theorem getElem_loadPadded (row : ℕ → UInt8) (kc k : ℕ) {l : ℕ} (h : l < 16) (hl : l < 8) :
    (loadPadded row kc k)[l] = if k + l < kc then row (k + l) else 0 := by
  simp [loadPadded, hl]

@[simp] theorem getElem_load16 (b : Bytes) (i : ℕ) {l : ℕ} (hl : l < 16) :
    (load16 b i)[l] = b.at0 (i + l) := by
  simp [load16]

/-! ## Sums of lanes -/

/-- The sum of the four lanes from `base` on. -/
def laneSum {n : ℕ} (base : ℕ) (v : Vector Int32 n) (h : base + 4 ≤ n) : Int32 :=
  v[base] + v[base + 1] + v[base + 2] + v[base + 3]

/-- A loop whose steps succeed and add to observed values adds up. -/
theorem exists_foldlM_add {α ι : Type} (observe : ι → α → Int32) {n : ℕ}
    {step : α → ℕ → Except Fault α} {f : ι → ℕ → Int32}
    (h : ∀ i < n, ∀ a, ∃ a', step a i = .ok a' ∧ ∀ j, observe j a' = observe j a + f j i) (a : α) :
    ∃ a', (List.range n).foldlM step a = .ok a' ∧
      ∀ j, observe j a' = observe j a + sumBelow n (f j) := by
  refine foldlM_range_of_step (I := fun i b ↦ ∀ j, observe j b = observe j a + sumBelow i (f j))
    (fun j ↦ (Int32.add_zero _).symm) fun i hi b hb ↦ ?_
  obtain ⟨b', hstep, hadd⟩ := h i hi b
  exact ⟨b', hstep, fun j ↦ by rw [hadd, hb, sumBelow_succ, Int32.add_assoc]⟩

private theorem add_pairs (v₀ v₁ v₂ v₃ p₀ p₁ p₂ p₃ p₄ p₅ p₆ p₇ : Int32) :
    v₀ + (p₀ + p₁) + (v₁ + (p₂ + p₃)) + (v₂ + (p₄ + p₅)) + (v₃ + (p₆ + p₇)) =
      v₀ + v₁ + v₂ + v₃ + (p₀ + p₁ + p₂ + p₃ + p₄ + p₅ + p₆ + p₇) := by
  ac_rfl

/-- Multiplying and adding pairs sums up eight products in four lanes. -/
theorem laneSum_add32_multiplyAdd {n base : ℕ} (h : base + 4 ≤ n) (v : Vector Int32 n)
    {a b : Vector Int16 (2 * n)} {product : ℕ → Int32}
    (hproduct : ∀ (l : ℕ) (hl : l < 8),
      a[2 * base + l].toInt32 * b[2 * base + l].toInt32 = product l) :
    laneSum base (add32 v (multiplyAdd a b)) h = laneSum base v h + sumBelow 8 product := by
  have hlane : ∀ (q : ℕ) (hq : q < 4), (add32 v (multiplyAdd a b))[base + q] =
      v[base + q] + (product (2 * q) + product (2 * q + 1)) := by
    intro q hq
    have hfirst := hproduct (2 * q) (by omega)
    have hsecond := hproduct (2 * q + 1) (by omega)
    simp only [← Nat.add_assoc, ← Nat.mul_add] at hfirst hsecond
    simp only [add32, multiplyAdd, Vector.getElem_zipWith, Vector.getElem_ofFn, get_eq_getElem]
    rw [hfirst, hsecond]
  have hsum : sumBelow 8 product = product 0 + product 1 + product 2 + product 3 + product 4 +
      product 5 + product 6 + product 7 := by simp [sumBelow]
  have hfirst := hlane 0 (by norm_num)
  simp only [Nat.add_zero, Nat.mul_zero, Nat.zero_add] at hfirst
  rw [laneSum, hfirst, hlane 1 (by norm_num), hlane 2 (by norm_num), hlane 3 (by norm_num), hsum,
    laneSum]
  exact add_pairs ..

/-! ## Loads -/

theorem read16_eq_ok {b : Bytes} {i : ℕ} (h : i + 16 ≤ b.size) : read16 b i = .ok (load16 b i) :=
  if_pos h

/-- A block that starts in the reduction does not go past the end of the row. -/
theorem readPadded_eq_ok {row : Bytes} {kc k : ℕ} (hsize : row.size = kc) (hk : k < kc) :
    readPadded row kc k = .ok (loadPadded row.at0 kc k) :=
  if_pos (by omega)

theorem fourOf_eq_ok {α : Type} {f : Fin 4 → Except Fault α} {g : Fin 4 → α}
    (h : ∀ q, f q = .ok (g q)) : fourOf f = .ok (Vector.ofFn g) := by
  rw [fourOf, h, h, h, h]
  rfl

end Lanes

/-- With groups of eight that are not rotated, a packed tile has eight bytes of each column for
every tap and block, behind the bias words. -/
theorem TileShape.blockEnd_le (mr nr : ℕ) {ks kc tap block : ℕ} (htap : tap < ks)
    (hblock : block < roundUp kc 8 / 8) :
    4 * nr + (tap * (roundUp kc 8 / 8) + block) * (8 * nr) + 8 * nr ≤
      (⟨mr, nr, 8, 1⟩ : TileShape).packedTileSize ks kc := by
  have hdepth : roundUp kc 8 / 8 * 8 = roundUp kc 8 := by
    rw [roundUp, Nat.mul_div_cancel _ (by norm_num)]
  calc 4 * nr + (tap * (roundUp kc 8 / 8) + block) * (8 * nr) + 8 * nr
      = 4 * nr + (tap * (roundUp kc 8 / 8) + block + 1) * (8 * nr) := by ring
    _ ≤ 4 * nr + ks * (roundUp kc 8 / 8) * (8 * nr) :=
        Nat.add_le_add_left (Nat.mul_le_mul_right _ (block_add_lt htap hblock)) _
    _ = nr * (4 + ks * (roundUp kc 8 / 8 * 8)) := by ring
    _ = nr * (4 + ks * roundUp kc 8) := by rw [hdepth]

theorem blockStart_lt {kc block : ℕ} (h : block < roundUp kc 8 / 8) : block * 8 < kc := by
  rw [roundUp, Nat.mul_div_cancel _ (by norm_num)] at h
  exact mul_lt_of_lt_divideUp (by norm_num) h

/-! ## What a weight counts for -/

namespace Portable

/-- With groups of eight that are not rotated, the terms of a block and a column come from eight
positions in a row, and weights past the end of the reduction are multiplied by zero. -/
theorem valuedTerm_eq_lane {mr nr : ℕ} (o : TileOperands) (value : UInt8 → Int32)
    (i tap block j : ℕ) {l : ℕ} (hl : l < 8) :
    valuedTerm ⟨mr, nr, 8, 1⟩ o value i tap block 0 j l =
      (Int16.ofNat (if block * 8 + l < o.kc then
        o.activation (tap * mr + i) (block * 8 + l) else 0).toNat).toInt32 *
      value (o.weights.at0
        (4 * nr + (((tap * (roundUp o.kc 8 / 8) + block) * nr + j) * 8 + l))) := by
  have hposition : position ⟨mr, nr, 8, 1⟩ block 0 j l = block * 8 + l := by
    change block * 8 + (0 * 8 + l + j * 8) % 8 = block * 8 + l
    omega
  have hweight : weightPosition ⟨mr, nr, 8, 1⟩ o tap block 0 j l =
      4 * nr + (((tap * (roundUp o.kc 8 / 8) + block) * nr + j) * 8 + l) := by
    change 4 * nr + ((((tap * (roundUp o.kc 8 / 8) + block) * 1 + 0) * nr + j) * 8 + l) = _
    rw [Nat.mul_one, Nat.add_zero]
  rw [toInt32_byte, valuedTerm, hposition, hweight]
  split_ifs with hk
  · rfl
  · exact (Int32.zero_mul).symm

end Portable

/-- What a vector kernel makes of a weight. -/
def SimdParams.weightValue (p : SimdParams) (b : UInt8) : Int32 :=
  (Int16.ofNat b.toNat - p.kernelZeroPoint).toInt32

theorem SimdParams.weightValue_eq {p : SimdParams} {z : UInt8}
    (hz : p.kernelZeroPoint = Int16.ofNat z.toNat) :
    p.weightValue = Portable.lessZero (byteToInt32 z) := by
  funext b
  rw [weightValue, hz, toInt32_byte_sub, Portable.lessZero]

/-! ## Four columns -/

namespace FourColumn

/-- What the kernels ask of an instruction set. -/
structure LaneOps.Correct (s : LaneOps) : Prop where
  widenLow_eq (a : Vector UInt8 16) : s.widenLow a = Lanes.widenLow a
  getElem_sumColumns (v : ColumnLanes) {j : ℕ} (hj : j < 4) :
    (s.sumColumns v)[j] = laneSum 0 v[j] (Nat.le_refl 4)

theorem LaneOps.sse2_correct : LaneOps.sse2.Correct where
  widenLow_eq a := by
    ext l hl
    simp [LaneOps.sse2, pairs16, interleaveLow8, Lanes.widenLow, get_eq_getElem]
  getElem_sumColumns v j hj := by
    have hcomm : ∀ w x y z : Int32, w + y + (x + z) = w + x + y + z := fun _ _ _ _ ↦ by ac_rfl
    interval_cases j <;>
      simp [LaneOps.sse2, combineFour, add32, interleaveLow32, interleaveHigh32, laneSum,
        get_eq_getElem, hcomm]

theorem LaneOps.sse41_correct : LaneOps.sse41.Correct where
  widenLow_eq _ := rfl
  getElem_sumColumns v j hj := by
    interval_cases j <;>
      simp [LaneOps.sse41, combineFour, addPairs32, laneSum, get_eq_getElem, Int32.add_assoc]

@[simp] theorem getElem_widenHigh (a : Vector UInt8 16) {l : ℕ} (hl : l < 8) :
    (widenHigh a)[l] = Int16.ofNat a[8 + l].toNat := by
  simp [widenHigh, pairs16, interleaveHigh8, get_eq_getElem]

variable {s : LaneOps} (hs : s.Correct) (p : SimdParams) (o : TileOperands)

include hs

/-- A lane of the weights is the weight of its column and position, less the zero point. -/
theorem getElem_lessZeroPoint (i : ℕ) {j l : ℕ} (hj : j < 4) (hl : l < 8) :
    (lessZeroPoint s p (load16 o.weights i) (load16 o.weights (i + 16)))[j][l].toInt32 =
      p.weightValue (o.weights.at0 (i + (j * 8 + l))) := by
  have hlast : 16 + (8 + l) = 24 + l := by omega
  interval_cases j <;>
    simp [SimdParams.weightValue, lessZeroPoint, sub16, hs.widenLow_eq, Lanes.widenLow,
      get_eq_getElem, getElem_widenHigh, getElem_load16, Nat.add_assoc, hlast]

def columnSum (j : Fin 4) (acc : ColumnLanes) : Int32 := laneSum 0 acc[j] (Nat.le_refl 4)

variable {mr i : ℕ} (ho : o.Complete ⟨mr, 4, 8, 1⟩)

include ho

omit hs in
theorem exists_biasLanes : ∃ acc, biasLanes o = .ok acc ∧
    ∀ j : Fin 4, columnSum j acc = o.weights.int32At (4 * j) := by
  refine ⟨_, fourOf_eq_ok fun j ↦ by rw [ho.readInt32_bias j.isLt]; rfl, fun j ↦ ?_⟩
  simp [columnSum, laneSum, lowWord]

variable (hi : i < mr)

include hi

theorem exists_addBlock {tap block : ℕ} (htap : tap < o.ks) (hblock : block < blocks o)
    (acc : ColumnLanes) :
    ∃ acc', addBlock s p o (tap * mr + i) tap block acc = .ok acc' ∧
      ∀ j : Fin 4, columnSum j acc' = columnSum j acc +
        sumBelow 8 (Portable.valuedTerm ⟨mr, 4, 8, 1⟩ o p.weightValue i tap block 0 j) := by
  obtain ⟨hrow, hsize⟩ := ho.readAt_rows (block_add_lt htap hi)
  have hend : 16 + (tap * blocks o + block) * 32 + 32 ≤ o.weights.size :=
    ho.size_weights ▸ TileShape.blockEnd_le mr 4 htap hblock
  have hrun : addBlock s p o (tap * mr + i) tap block acc = .ok (Vector.zipWith
      (fun v w ↦ add32 v (multiplyAdd
        (s.widenLow (loadPadded (o.activation (tap * mr + i)) o.kc (block * 8))) w)) acc
      (lessZeroPoint s p (load16 o.weights (16 + (tap * blocks o + block) * 32))
        (load16 o.weights (16 + (tap * blocks o + block) * 32 + 16)))) := by
    rw [addBlock, hrow, ok_bind, readPadded_eq_ok hsize (blockStart_lt hblock), ok_bind,
      loadWeights, read16_eq_ok (by omega), read16_eq_ok (by omega)]
    rfl
  refine ⟨_, hrun, fun j ↦ ?_⟩
  rw [columnSum, Fin.getElem_fin, Vector.getElem_zipWith]
  refine laneSum_add32_multiplyAdd _ _ fun l hl ↦ ?_
  simp only [Nat.mul_zero, Nat.zero_add]
  have hactivation : (s.widenLow (loadPadded (o.activation (tap * mr + i)) o.kc (block * 8)))[l] =
      Int16.ofNat (if block * 8 + l < o.kc then
        o.activation (tap * mr + i) (block * 8 + l) else 0).toNat := by
    rw [hs.widenLow_eq, Lanes.widenLow, Vector.getElem_ofFn, get_eq_getElem,
      getElem_loadPadded _ _ _ _ hl]
  have hposition : 16 + (tap * blocks o + block) * 32 + (j * 8 + l) =
      4 * 4 + (((tap * (roundUp o.kc 8 / 8) + block) * 4 + j) * 8 + l) := by
    unfold blocks
    ring
  rw [hactivation, getElem_lessZeroPoint hs p o _ j.isLt hl,
    Portable.valuedTerm_eq_lane o _ i tap block j hl, hposition]

/-- Each lane of a row is the accumulator of its column. -/
theorem exists_rowSums : ∃ v, rowSums s p o mr i = .ok v ∧ ∀ (j : ℕ) (hj : j < 4),
    v[j] = Portable.valuedAccumulator ⟨mr, 4, 8, 1⟩ o p.weightValue i j := by
  obtain ⟨bias, hbias, hword⟩ := exists_biasLanes o ho
  -- the sums of all columns, observed through both loops
  obtain ⟨acc, hrun, hsum⟩ := exists_foldlM_add columnSum (fun tap htap acc ↦
    exists_foldlM_add columnSum (fun block hblock acc ↦
      exists_addBlock hs p o ho hi htap hblock acc) acc) bias
  refine ⟨s.sumColumns acc, ?_, fun j hj ↦ ?_⟩
  · rw [rowSums, rowLanes, hbias, ok_bind, hrun]
    rfl
  · rw [hs.getElem_sumColumns _ hj]
    refine (hsum ⟨j, hj⟩).trans ?_
    rw [hword]
    simp [Portable.valuedAccumulator, Portable.blocks, blocks, sumBelow, TileShape.paddedDepth,
      TileShape.kBlock]

end FourColumn

/-! ## Eight columns -/

namespace EightColumn

/-- Column `j` is in one half of pair `j / 2`, the even ones in the lower half. -/
theorem getElem_sumColumns (v : PairLanes) {j : ℕ} (hj : j < 8) :
    (sumColumns v)[j] = laneSum (4 * (j % 2)) v[j / 2] (by omega) := by
  interval_cases j <;>
    simp [sumColumns, combineFour, permute32, columnSources, addPairs32Wide, laneSum,
      get_eq_getElem, Int32.add_assoc]

@[simp] theorem getElem_activations (row : ℕ → UInt8) (kc k : ℕ) {l : ℕ} (hl : l < 16) :
    (widen (repeatLow8 (loadPadded row kc k)))[l] =
      Int16.ofNat (if k + l % 8 < kc then row (k + l % 8) else 0).toNat := by
  have hmod : l % 8 < 8 := Nat.mod_lt l (by norm_num)
  rw [widen, Vector.getElem_map, repeatLow8, Vector.getElem_ofFn, get_eq_getElem,
    getElem_loadPadded _ _ _ _ hmod]

variable (p : SimdParams) (o : TileOperands)

theorem getElem_pairWeights (i q : ℕ) {l : ℕ} (hl : l < 16) :
    (sub16 (widen (load16 o.weights (i + 16 * q)))
        (Vector.replicate 16 p.kernelZeroPoint))[l].toInt32 =
      p.weightValue (o.weights.at0 (i + (16 * q + l))) := by
  simp [SimdParams.weightValue, sub16, widen, getElem_load16, Nat.add_assoc]

def columnSum (j : Fin 8) (acc : PairLanes) : Int32 :=
  laneSum (4 * (j % 2)) acc[j.val / 2] (by omega)

variable {mr i : ℕ} (ho : o.Complete ⟨mr, 8, 8, 1⟩)

include ho

theorem exists_biasLanes : ∃ acc, biasLanes o = .ok acc ∧
    ∀ j : Fin 8, columnSum j acc = o.weights.int32At (4 * j) := by
  have hwords : biasLanes o = .ok (Vector.ofFn fun q ↦
      lowWords (o.weights.int32At (4 * (2 * q))) (o.weights.int32At (4 * (2 * q + 1)))) := by
    refine fourOf_eq_ok fun q ↦ ?_
    have hq := q.isLt
    rw [ho.readInt32_bias (j := 2 * q) (by dsimp only; omega),
      ho.readInt32_bias (j := 2 * q + 1) (by dsimp only; omega)]
    rfl
  refine ⟨_, hwords, fun j ↦ ?_⟩
  fin_cases j <;> simp [columnSum, laneSum, lowWords]

variable (hi : i < mr)

include hi

theorem exists_addBlock {tap block : ℕ} (htap : tap < o.ks) (hblock : block < blocks o)
    (acc : PairLanes) :
    ∃ acc', addBlock p o (tap * mr + i) tap block acc = .ok acc' ∧
      ∀ j : Fin 8, columnSum j acc' = columnSum j acc +
        sumBelow 8 (Portable.valuedTerm ⟨mr, 8, 8, 1⟩ o p.weightValue i tap block 0 j) := by
  obtain ⟨hrow, hsize⟩ := ho.readAt_rows (block_add_lt htap hi)
  have hend : 32 + (tap * blocks o + block) * 64 + 64 ≤ o.weights.size :=
    ho.size_weights ▸ TileShape.blockEnd_le mr 8 htap hblock
  have hweights : fourOf (fun q ↦ loadWeights p o (32 + (tap * blocks o + block) * 64) q) =
      .ok (Vector.ofFn fun q ↦ sub16 (widen (load16 o.weights
        (32 + (tap * blocks o + block) * 64 + 16 * q)))
          (Vector.replicate 16 p.kernelZeroPoint)) := by
    refine fourOf_eq_ok fun q ↦ ?_
    have hq := q.isLt
    rw [loadWeights, read16_eq_ok (by omega)]
    rfl
  have hrun : addBlock p o (tap * mr + i) tap block acc = .ok (Vector.zipWith
      (fun v w ↦ add32 v (multiplyAdd
        (widen (repeatLow8 (loadPadded (o.activation (tap * mr + i)) o.kc (block * 8)))) w)) acc
      (Vector.ofFn fun q ↦ sub16 (widen (load16 o.weights
        (32 + (tap * blocks o + block) * 64 + 16 * q)))
          (Vector.replicate 16 p.kernelZeroPoint))) := by
    rw [addBlock, hrow, ok_bind, readPadded_eq_ok hsize (blockStart_lt hblock), ok_bind, hweights]
    rfl
  refine ⟨_, hrun, fun j ↦ ?_⟩
  have hj := j.isLt
  rw [columnSum, Vector.getElem_zipWith, Vector.getElem_ofFn]
  refine laneSum_add32_multiplyAdd _ _ fun l hl ↦ ?_
  have hplace : (2 * (4 * (j.val % 2)) + l) % 8 = l := by omega
  have hposition : 32 + (tap * blocks o + block) * 64 +
      (16 * (j.val / 2) + (2 * (4 * (j.val % 2)) + l)) =
      4 * 8 + (((tap * (roundUp o.kc 8 / 8) + block) * 8 + j) * 8 + l) := by
    unfold blocks
    omega
  rw [getElem_activations _ _ _ (by omega), hplace, getElem_pairWeights p o _ _ (by omega),
    hposition, Portable.valuedTerm_eq_lane o _ i tap block j hl]

/-- Each lane of a row is the accumulator of its column. -/
theorem exists_rowSums : ∃ v, rowSums p o mr i = .ok v ∧ ∀ (j : ℕ) (hj : j < 8),
    v[j] = Portable.valuedAccumulator ⟨mr, 8, 8, 1⟩ o p.weightValue i j := by
  obtain ⟨bias, hbias, hword⟩ := exists_biasLanes o ho
  -- the sums of all columns, observed through both loops
  obtain ⟨acc, hrun, hsum⟩ := exists_foldlM_add columnSum (fun tap htap acc ↦
    exists_foldlM_add columnSum (fun block hblock acc ↦
      exists_addBlock p o ho hi htap hblock acc) acc) bias
  refine ⟨sumColumns acc, ?_, fun j hj ↦ ?_⟩
  · rw [rowSums, rowLanes, hbias, ok_bind, hrun]
    rfl
  · rw [getElem_sumColumns _ hj]
    refine (hsum ⟨j, hj⟩).trans ?_
    rw [hword]
    simp [Portable.valuedAccumulator, Portable.blocks, blocks, sumBelow, TileShape.paddedDepth,
      TileShape.kBlock]

end EightColumn

end QuantizedGemm
