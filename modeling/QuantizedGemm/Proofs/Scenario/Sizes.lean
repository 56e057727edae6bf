import Mathlib.Data.List.ProdSigma
import QuantizedGemm.Proofs.Tile
import QuantizedGemm.Scenario

/-!
# The sizes that a scenario runs through

A scenario combines some numbers of columns with some depths of the reduction and some numbers of
rows, and changes one thing or another about the test cases that arise. It is told here by these
three lists and by the change, in place of a list of test cases (`testCases_eq_map`). What it covers
follows from the lists alone, since no change touches a size: the sizes of its test cases are the
product of the three (`map_sizes_testCases`).

The scenario on padding rows stands apart. It repeats the one on offsets for every padding row.
-/

namespace QuantizedGemm.Scenario

/-! ## Sweeps -/

section Sweeps

@[simp] theorem mem_upTo {low high k : ℕ} : k ∈ upTo low high ↔ low ≤ k ∧ k < high := by
  rw [upTo, List.mem_range'_1]
  omega

@[simp] theorem nodup_upTo (low high : ℕ) : (upTo low high).Nodup := List.nodup_range'

@[simp] theorem upTo_eq_nil_iff {low high : ℕ} : upTo low high = [] ↔ high ≤ low := by
  rw [upTo, List.range'_eq_nil_iff]
  omega

variable {t : TileShape} {k m n : ℕ}

@[simp] theorem mem_allM : m ∈ allM t ↔ 1 ≤ m ∧ m ≤ t.mr := by
  rw [allM, mem_upTo, Nat.lt_succ_iff]

@[simp] theorem mem_allN : n ∈ allN t ↔ 1 ≤ n ∧ n ≤ t.nr := by
  rw [allN, mem_upTo, Nat.lt_succ_iff]

/-- More columns than a tile has, and never a whole number of tiles of more than one column. -/
theorem lt_of_mem_nAbove (h : n ∈ nAbove t) : t.nr < n ∧ (1 < t.nr → ¬t.nr ∣ n) := by
  obtain ⟨hlow, hhigh⟩ := mem_upTo.mp h
  refine ⟨hlow, fun hnr hdvd ↦ ?_⟩
  rw [if_neg (by omega)] at hhigh
  -- a multiple between one tile and two
  obtain ⟨q, rfl⟩ := hdvd
  have hone : 1 < q := Nat.lt_of_mul_lt_mul_left (a := t.nr) (by omega)
  have htwo : q < 2 := Nat.lt_of_mul_lt_mul_left (a := t.nr) (by omega)
  omega

@[simp] theorem mem_nMultiples : n ∈ nMultiples t ↔ n = 2 * t.nr ∨ n = 3 * t.nr := by
  rw [nMultiples, List.mem_pair]

theorem le_of_mem_kSweep (h : k ∈ kSweep t) : 1 ≤ k ∧ k ≤ 5 * t.kBlock := by
  obtain ⟨i, hi, rfl⟩ := List.mem_range'.mp h
  have hlt := mul_lt_of_lt_divideUp (by omega) hi
  rw [Nat.mul_comm] at hlt
  omega

theorem kSweep_ne_nil (hkb : 0 < t.kBlock) : kSweep t ≠ [] := by
  have hcount : 0 / (t.kBlock + 1) < divideUp (5 * t.kBlock) (t.kBlock + 1) :=
    div_lt_divideUp (by omega) (by omega)
  rw [kSweep, ne_eq, List.range'_eq_nil_iff]
  exact Nat.ne_zero_of_lt hcount

theorem le_of_mem_kMultiples (h : k ∈ kMultiples t) : t.kBlock ≤ k := by
  unfold kMultiples at h
  split at h
  · obtain ⟨i, -, rfl⟩ := List.mem_range'.mp h
    omega
  · cases h

end Sweeps

/-! ## Sizes and changes -/

section Ranges

variable (t : TileShape)

/-- The numbers of columns that a scenario runs through. -/
def columns : Scenario → List ℕ
  | kEqSubtile | kEqSubtileN | kLtSubtile | kGtSubtile | kDivSubtile | smallKernelSubtile
  | stridedCmSubtile => allN t
  | nGt | nGtStridedCn | nGtSubtile | nGtSmallKernel => nAbove t
  | nDiv | nDivStridedCn | nDivSubtile | nDivSmallKernel => nMultiples t
  | _ => [t.nr]

/-- The depths of the reduction that a scenario runs through. -/
def depths : Scenario → List ℕ
  | kEq | stridedCn | kEqSubtile | kEqSubtileM | kEqSubtileN | qmin | qmax | stridedCm => [t.kBlock]
  | kLt | kLtSubtile => kBelow t
  | kGt | kGtSubtile => kAbove t
  | kDiv | kDivSubtile => kMultiples t
  | _ => kSweep t

/-- The numbers of rows that a scenario runs through. -/
def rows : Scenario → List ℕ
  | kEqSubtile | kEqSubtileM | kLtSubtile | kGtSubtile | kDivSubtile | nGtSubtile | nDivSubtile
  | smallKernelSubtile | stridedCmSubtile => allM t
  | _ => [t.mr]

/-- What a scenario changes about a test case. -/
def adjust : Scenario → TestCase → TestCase
  | kEqSubtile, c | kEqSubtileM, c | kEqSubtileN, c | kLtSubtile, c | kGtSubtile, c
  | kDivSubtile, c | nGtSubtile, c | nDivSubtile, c => { c with iterations := 1 }
  | stridedCn, c | nGtStridedCn, c | nDivStridedCn, c =>
    { c with givenCnStride := some (primeStride t) }
  | smallKernel, c | nGtSmallKernel, c | nDivSmallKernel, c => { c with ks := 3 }
  | smallKernelSubtile, c => { c with iterations := 1, ks := 3 }
  | stridedCm, c => { c with givenCmStride := some (primeStride t) }
  | stridedCmSubtile, c => { c with iterations := 1, givenCmStride := some (primeStride t) }
  | aOffset, c | zero, c => { c with ks := 3, aOffset := primeOffset t }
  | qmin, c => { c with qmin := 128 }
  | qmax, c => { c with qmax := 128 }
  | noAZeroPoint, c => { c with aZeroPoint := 0 }
  | noBZeroPoint, c => { c with bZeroPoint := 0 }
  | noZeroPoint, c => { c with aZeroPoint := 0, bZeroPoint := 0 }
  | _, c => c

/-- The sizes of a test case, in the order in which they vary. -/
def sizes (c : TestCase) : ℕ × ℕ × ℕ := (c.n, c.k, c.m)

/-- A scenario is a change to all combinations of its sizes. -/
theorem testCases_eq_map {s : Scenario} (hs : s ≠ zero) :
    s.testCases t = (grid t (s.columns t) (s.depths t) (s.rows t)).map (s.adjust t) := by
  cases s with
  | zero => exact absurd rfl hs
  | smallKernelSubtile | stridedCmSubtile | aOffset =>
    exact List.map_map
  | kEq | kLt | kGt | kDiv | nGt | nDiv => exact (List.map_id' _).symm
  | _ => rfl

/-- The scenario on padding rows is the one on offsets, once for each padding row. -/
theorem testCases_zero :
    zero.testCases t = (List.range t.mr).flatMap fun z ↦
      (aOffset.testCases t).map fun c ↦ { c with zeroIndex := some z } := rfl

end Ranges

variable {t : TileShape} {s : Scenario}

/-! ## Every size once -/

theorem columns_cases (t : TileShape) (s : Scenario) : s.columns t = allN t ∨
    s.columns t = nAbove t ∨ s.columns t = nMultiples t ∨ s.columns t = [t.nr] := by
  cases s <;> simp [columns]

theorem depths_cases (t : TileShape) (s : Scenario) : s.depths t = kSweep t ∨
    s.depths t = kBelow t ∨ s.depths t = kAbove t ∨ s.depths t = kMultiples t ∨
      s.depths t = [t.kBlock] := by
  cases s <;> simp [depths]

theorem rows_cases (t : TileShape) (s : Scenario) :
    s.rows t = allM t ∨ s.rows t = [t.mr] := by
  cases s <;> simp [rows]

theorem nodup_columns (hnr : 0 < t.nr) (s : Scenario) : (s.columns t).Nodup := by
  rcases columns_cases t s with h | h | h | h <;> rw [h]
  · exact nodup_upTo ..
  · exact nodup_upTo ..
  · rw [nMultiples, List.nodup_cons, List.mem_singleton]
    exact ⟨by omega, List.nodup_singleton _⟩
  · exact List.nodup_singleton _

theorem nodup_depths (hkb : 0 < t.kBlock) (s : Scenario) : (s.depths t).Nodup := by
  rcases depths_cases t s with h | h | h | h | h <;> rw [h]
  · exact List.nodup_range' _ (Nat.succ_pos _)
  · exact nodup_upTo ..
  · exact nodup_upTo ..
  · unfold kMultiples
    split
    · exact List.nodup_range' _ hkb
    · exact List.nodup_nil
  · exact List.nodup_singleton _

theorem nodup_rows (t : TileShape) (s : Scenario) : (s.rows t).Nodup := by
  rcases rows_cases t s with h | h <;> rw [h]
  · exact nodup_upTo ..
  · exact List.nodup_singleton _

/-! ## Sizes in their bounds -/

theorem pos_of_mem_columns (hnr : 0 < t.nr) {n : ℕ} (h : n ∈ s.columns t) : 0 < n := by
  rcases columns_cases t s with hs | hs | hs | hs <;> rw [hs] at h
  · exact (mem_allN.mp h).1
  · exact (Nat.zero_le _).trans_lt (lt_of_mem_nAbove h).1
  · have hn := mem_nMultiples.mp h
    omega
  · rwa [List.mem_singleton.mp h]

theorem pos_of_mem_depths (hkb : 0 < t.kBlock) {k : ℕ} (h : k ∈ s.depths t) : 0 < k := by
  rcases depths_cases t s with hs | hs | hs | hs | hs <;> rw [hs] at h
  · exact (le_of_mem_kSweep h).1
  · exact (mem_upTo.mp h).1
  · exact (Nat.succ_pos _).trans_le (mem_upTo.mp h).1
  · exact hkb.trans_le (le_of_mem_kMultiples h)
  · rwa [List.mem_singleton.mp h]

theorem mem_rows_bounds (hmr : 0 < t.mr) {m : ℕ} (h : m ∈ s.rows t) : 0 < m ∧ m ≤ t.mr := by
  rcases rows_cases t s with hs | hs <;> rw [hs] at h
  · exact mem_allM.mp h
  · rw [List.mem_singleton.mp h]
    exact ⟨hmr, le_rfl⟩

/-! ## Sizes there are -/

theorem columns_ne_nil (hnr : 0 < t.nr) (s : Scenario) : s.columns t ≠ [] := by
  rcases columns_cases t s with h | h | h | h <;> rw [h]
  · rw [allN, ne_eq, upTo_eq_nil_iff]
    omega
  · rw [nAbove, ne_eq, upTo_eq_nil_iff]
    split <;> omega
  · exact List.cons_ne_nil _ _
  · exact List.cons_ne_nil _ _

theorem rows_ne_nil (hmr : 0 < t.mr) (s : Scenario) : s.rows t ≠ [] := by
  rcases rows_cases t s with h | h <;> rw [h]
  · rw [allM, ne_eq, upTo_eq_nil_iff]
    omega
  · exact List.cons_ne_nil _ _

/-- Only the parts and the multiples of a block may be missing. -/
theorem depths_eq_nil_iff (hkb : 0 < t.kBlock) :
    s.depths t = [] ↔ t.kBlock = 1 ∧ s ∈ [kLt, kLtSubtile, kDiv, kDivSubtile] := by
  have hbelow : kBelow t = [] ↔ t.kBlock = 1 := by
    rw [kBelow, upTo_eq_nil_iff]
    omega
  have habove : kAbove t ≠ [] := by
    rw [kAbove, ne_eq, upTo_eq_nil_iff]
    split <;> omega
  have hmultiples : kMultiples t = [] ↔ t.kBlock = 1 := by
    unfold kMultiples
    split
    · simp only [List.range'_eq_nil_iff]
      omega
    · simp only [true_iff]
      omega
  cases s <;> simp [depths, hbelow, habove, hmultiples, kSweep_ne_nil hkb]

section Grid

variable {t : TileShape}

@[simp] theorem mem_grid {ns ks ms : List ℕ} {c : TestCase} :
    c ∈ grid t ns ks ms ↔
      ∃ n ∈ ns, ∃ k ∈ ks, ∃ m ∈ ms, { base t with m := m, n := n, k := k } = c := by
  simp only [grid, List.mem_flatMap, List.mem_map]

@[simp] theorem map_sizes_grid (ns ks ms : List ℕ) :
    (grid t ns ks ms).map sizes = ns ×ˢ (ks ×ˢ ms) := by
  simp only [grid, List.map_flatMap, List.map_map, SProd.sprod, List.product]
  rfl

@[simp] theorem sizes_adjust (s : Scenario) (c : TestCase) : sizes (s.adjust t c) = sizes c := by
  cases s <;> rfl

theorem map_sizes_testCases {s : Scenario} (hs : s ≠ zero) :
    (s.testCases t).map sizes = s.columns t ×ˢ (s.depths t ×ˢ s.rows t) := by
  rw [testCases_eq_map t hs, List.map_map, ← map_sizes_grid (t := t)]
  exact List.map_congr_left fun c _ ↦ sizes_adjust s c

end Grid

end QuantizedGemm.Scenario
