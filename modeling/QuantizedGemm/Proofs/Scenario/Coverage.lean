import QuantizedGemm.Proofs.Primes
import QuantizedGemm.Proofs.Scenario.Sizes
import QuantizedGemm.Proofs.TestCase

/-!
# What the scenarios cover

For every tile shape whose sizes are positive, the scenarios make sense and leave nothing out that
they are about (`Covering`).

## Valid test cases

Each test case is valid: its sizes are positive and fit the tile, and a stride that a scenario sets
is a prime above the width of a tile, which leaves room for a column tile, and for a row that has no
more than one. So no run of a scenario is refused for its configuration.

## Nothing left out

A scenario has test cases unless it is about the parts or the multiples of a block of one position.
The rest is about sizes, and sizes are a product of three sweeps without repetitions, so that each
combination comes up once (`count_sizes`). What a scenario sweeps is read off its lists, whatever
the tile shape is.
-/

namespace QuantizedGemm.Scenario

variable {t : TileShape} {s : Scenario} {c : TestCase}

/-! ## What a change keeps -/

section Adjust

variable (t s c)

@[simp] theorem shape_adjust : (s.adjust t c).shape = c.shape := by cases s <;> rfl

@[simp] theorem n_adjust : (s.adjust t c).n = c.n := congrArg Prod.fst (sizes_adjust s c)

@[simp] theorem k_adjust : (s.adjust t c).k = c.k := congrArg (·.2.1) (sizes_adjust s c)

@[simp] theorem m_adjust : (s.adjust t c).m = c.m := congrArg (·.2.2) (sizes_adjust s c)

@[simp] theorem zeroIndex_adjust : (s.adjust t c).zeroIndex = c.zeroIndex := by cases s <;> rfl

end Adjust

theorem ks_adjust_pos (h : 0 < c.ks) : 0 < (s.adjust t c).ks := by
  cases s <;> simp [adjust, h]

theorem givenCnStride_adjust (h : c.givenCnStride = none) :
    (s.adjust t c).givenCnStride = none ∨
      (s.adjust t c).givenCnStride = some (primeStride t) := by
  cases s <;> simp [adjust, h]

/-- The rows are spread in scenarios of one column tile only. -/
theorem givenCmStride_adjust (h : c.givenCmStride = none) :
    (s.adjust t c).givenCmStride = none ∨ (∀ n ∈ s.columns t, n ≤ t.nr) ∧
      (s.adjust t c).givenCmStride = some (primeStride t) := by
  cases s <;> simp [adjust, h, columns, mem_allN]

theorem qmin_adjust_le (hmin : c.qmin = 0) (hmax : c.qmax = 255) :
    (s.adjust t c).qmin ≤ (s.adjust t c).qmax := by
  cases s <;> simp [adjust, hmin, hmax]

/-! ## Valid test cases -/

/-- The test cases with padding rows are those with offsets, with every row of the tile for
padding. -/
theorem mem_testCases_zero : c ∈ zero.testCases t ↔
    ∃ z < t.mr, ∃ b ∈ aOffset.testCases t, { b with zeroIndex := some z } = c := by
  simp only [testCases_zero, List.mem_flatMap, List.mem_range, List.mem_map]

theorem lt_primeStride (t : TileShape) : t.nr < primeStride t := le_nextPrime (t.nr + 1)

theorem le_cnStride_adjust (hshape : c.shape = t) (hcn : c.givenCnStride = none) :
    t.nr ≤ (s.adjust t c).cnStride := by
  rw [TestCase.cnStride, shape_adjust, hshape]
  rcases givenCnStride_adjust (t := t) (s := s) hcn with h | h
  · rw [h, Option.getD_none]
  · rw [h, Option.getD_some]
    exact (lt_primeStride t).le

/-- A row ends before the next one starts, whether the distance follows from the column tiles or is
the prime above the width of the only one. -/
theorem rowExtent_adjust_le (hnr : 0 < t.nr) (hshape : c.shape = t)
    (hcn : c.givenCnStride = none) (hcm : c.givenCmStride = none) (hn : c.n ∈ s.columns t) :
    (s.adjust t c).rowExtent ≤ (s.adjust t c).cmStride := by
  have hadjusted : (s.adjust t c).shape = t := (shape_adjust t s c).trans hshape
  have hcolumns : (s.adjust t c).n = c.n := n_adjust t s c
  have hpos : 0 < c.n := pos_of_mem_columns hnr hn
  rcases givenCmStride_adjust (t := t) (s := s) hcm with h | ⟨hnarrow, h⟩
  · apply TestCase.rowExtent_le_cmStride _ _ _ h
    · rwa [hadjusted]
    · rwa [hcolumns]
    · rw [hadjusted]
      exact le_cnStride_adjust hshape hcn
  · have hle : c.n ≤ t.nr := hnarrow c.n hn
    have hextent : (s.adjust t c).rowExtent = c.n := by
      rw [TestCase.rowExtent_of_le, hcolumns]
      · rwa [hcolumns]
      · rwa [hcolumns, hadjusted]
    rw [hextent, TestCase.cmStride, h, Option.getD_some]
    exact (hle.trans_lt (lt_primeStride t)).le

section Positive

variable (hmr : 0 < t.mr) (hnr : 0 < t.nr) (hkr : 0 < t.kr) (hsr : 0 < t.sr)

include hmr hnr hkr hsr

/-- What a scenario makes of a combination of its sizes is valid. -/
theorem valid_adjust {n k m : ℕ} (hn : n ∈ s.columns t) (hk : k ∈ s.depths t)
    (hm : m ∈ s.rows t) : (s.adjust t { base t with m := m, n := n, k := k }).Valid := by
  set b : TestCase := { base t with m := m, n := n, k := k }
  have hshape : (s.adjust t b).shape = t := shape_adjust t s b
  have hrows : (s.adjust t b).m = m := m_adjust t s b
  have hbounds : 0 < m ∧ m ≤ t.mr := mem_rows_bounds hmr hm
  constructor
  case mr_pos => rwa [hshape]
  case nr_pos => rwa [hshape]
  case kr_pos => rwa [hshape]
  case sr_pos => rwa [hshape]
  case m_pos =>
    rw [hrows]
    exact hbounds.1
  case n_pos =>
    rw [n_adjust]
    exact pos_of_mem_columns hnr hn
  case k_pos =>
    rw [k_adjust]
    exact pos_of_mem_depths (TileShape.kBlock_pos hkr hsr) hk
  case ks_pos => exact ks_adjust_pos Nat.one_pos
  case m_le =>
    rw [hrows, hshape]
    exact hbounds.2
  case zeroIndex =>
    intro z hz
    rw [zeroIndex_adjust] at hz
    cases hz
  case cnStride =>
    rw [hshape]
    exact le_cnStride_adjust rfl rfl
  case cmStride => exact .inr (rowExtent_adjust_le hnr rfl rfl rfl hn)
  case range => exact qmin_adjust_le rfl rfl

theorem valid_of_ne_zero (hs : s ≠ zero) (hc : c ∈ s.testCases t) : c.Valid := by
  rw [testCases_eq_map t hs] at hc
  obtain ⟨b, hgrid, rfl⟩ := List.mem_map.mp hc
  obtain ⟨n, hn, k, hk, m, hm, rfl⟩ := mem_grid.mp hgrid
  exact valid_adjust hmr hnr hkr hsr hn hk hm

omit hmr hnr hkr hsr in
theorem shape_of_ne_zero (hs : s ≠ zero) (hc : c ∈ s.testCases t) : c.shape = t := by
  rw [testCases_eq_map t hs] at hc
  obtain ⟨b, hgrid, rfl⟩ := List.mem_map.mp hc
  obtain ⟨n, -, k, -, m, -, rfl⟩ := mem_grid.mp hgrid
  exact shape_adjust ..

theorem valid_of_mem_testCases (hc : c ∈ s.testCases t) : c.Valid := by
  by_cases hs : s = zero
  · subst hs
    obtain ⟨z, hz, b, hb, rfl⟩ := mem_testCases_zero.mp hc
    have hvalid : b.Valid := valid_of_ne_zero hmr hnr hkr hsr (s := aOffset) (by decide) hb
    have hshape : b.shape = t := shape_of_ne_zero (s := aOffset) (by decide) hb
    -- the padding row is all that is new
    have hpadding : ∀ z', some z = some z' → z' < b.shape.mr := by
      intro z' hz'
      cases hz'
      rwa [hshape]
    exact { hvalid with zeroIndex := hpadding }
  · exact valid_of_ne_zero hmr hnr hkr hsr hs hc

/-! ## Scenarios with nothing to run -/

omit hkr hsr in
theorem testCases_eq_nil_iff_depths (hs : s ≠ zero) : s.testCases t = [] ↔ s.depths t = [] := by
  have hlength : (s.testCases t).length =
      (s.columns t).length * ((s.depths t).length * (s.rows t).length) := by
    rw [← List.length_map sizes, map_sizes_testCases hs, List.length_product, List.length_product]
  have hcolumns := List.length_pos_iff.mpr (columns_ne_nil hnr s)
  have hrows := List.length_pos_iff.mpr (rows_ne_nil hmr s)
  rw [← List.length_eq_zero_iff, hlength, ← List.length_eq_zero_iff, Nat.mul_eq_zero,
    Nat.mul_eq_zero]
  omega

theorem exists_mem_aOffset : ∃ c, c ∈ aOffset.testCases t := by
  apply List.exists_mem_of_ne_nil
  rw [ne_eq, testCases_eq_nil_iff_depths hmr hnr (by decide)]
  exact kSweep_ne_nil (TileShape.kBlock_pos hkr hsr)

theorem testCases_eq_nil_iff (s : Scenario) :
    s.testCases t = [] ↔ t.kBlock = 1 ∧ s ∈ [kLt, kLtSubtile, kDiv, kDivSubtile] := by
  by_cases hs : s = zero
  · subst hs
    obtain ⟨c, hc⟩ := exists_mem_aOffset hmr hnr hkr hsr
    have hmem : { c with zeroIndex := some 0 } ∈ zero.testCases t :=
      mem_testCases_zero.mpr ⟨0, hmr, c, hc, rfl⟩
    simp [List.ne_nil_of_mem hmem]
  · rw [testCases_eq_nil_iff_depths hmr hnr hs, depths_eq_nil_iff (TileShape.kBlock_pos hkr hsr)]

end Positive

/-! ## Sizes -/

theorem exists_mem_testCases_iff (hs : s ≠ zero) {n k m : ℕ} :
    (∃ c ∈ s.testCases t, c.n = n ∧ c.k = k ∧ c.m = m) ↔
      n ∈ s.columns t ∧ k ∈ s.depths t ∧ m ∈ s.rows t := by
  have hmem : (n, k, m) ∈ (s.testCases t).map sizes ↔
      n ∈ s.columns t ∧ k ∈ s.depths t ∧ m ∈ s.rows t := by
    rw [map_sizes_testCases hs, List.mem_product, List.mem_product]
  rw [← hmem, List.mem_map]
  simp only [sizes, Prod.mk.injEq]

theorem sizes_mem_of_mem_testCases (hs : s ≠ zero) (hc : c ∈ s.testCases t) :
    c.n ∈ s.columns t ∧ c.k ∈ s.depths t ∧ c.m ∈ s.rows t :=
  (exists_mem_testCases_iff hs).mp ⟨c, hc, rfl, rfl, rfl⟩

theorem exists_columns_iff (hs : s ≠ zero) (hmr : 0 < t.mr) (hdepths : s.depths t ≠ []) {n : ℕ} :
    (∃ c ∈ s.testCases t, c.n = n) ↔ n ∈ s.columns t := by
  constructor
  · rintro ⟨c, hc, rfl⟩
    exact (sizes_mem_of_mem_testCases hs hc).1
  · intro hn
    obtain ⟨k, hk⟩ := List.exists_mem_of_ne_nil _ hdepths
    obtain ⟨m, hm⟩ := List.exists_mem_of_ne_nil _ (rows_ne_nil hmr s)
    obtain ⟨c, hc, hcn, -⟩ := (exists_mem_testCases_iff hs).mpr ⟨hn, hk, hm⟩
    exact ⟨c, hc, hcn⟩

/-- Each combination of the sizes that a scenario runs through comes up once, and no other. -/
theorem count_sizes (hs : s ≠ zero) (hnr : 0 < t.nr) (hkb : 0 < t.kBlock) (n k m : ℕ) :
    ((s.testCases t).map sizes).count (n, k, m) =
      if n ∈ s.columns t ∧ k ∈ s.depths t ∧ m ∈ s.rows t then 1 else 0 := by
  have hnodup : (s.columns t ×ˢ (s.depths t ×ˢ s.rows t)).Nodup :=
    (nodup_columns hnr s).product ((nodup_depths hkb s).product (nodup_rows t s))
  rw [map_sizes_testCases hs, hnodup.count]
  simp only [List.mem_product]

@[simp] theorem map_k_grid (n m : ℕ) (ks : List ℕ) : (grid t [n] ks [m]).map TestCase.k = ks := by
  simp [grid, List.map_flatMap]

/-- Less than a block, a block, and more than a block follow on one another. -/
theorem depths_consecutive (hkb : 1 < t.kBlock) :
    kBelow t ++ [t.kBlock] ++ kAbove t = List.range' 1 (2 * t.kBlock - 1) := by
  have hbelow : kBelow t = List.range' 1 (t.kBlock - 1) := rfl
  have hblock : [t.kBlock] = List.range' (1 + (t.kBlock - 1)) 1 := by
    rw [List.range'_one]
    congr 1
    omega
  have habove : kAbove t = List.range' (1 + (t.kBlock - 1 + 1)) (t.kBlock - 1) := by
    rw [kAbove, upTo, if_neg (by omega)]
    congr 1 <;> omega
  rw [hbelow, hblock, List.range'_append_1, habove, List.range'_append_1]
  congr 1
  omega

/-! ## Offsets and padding rows -/

/-- An offset is a prime behind every row of the sweep. -/
theorem aOffset_of_mem (hc : c ∈ aOffset.testCases t) :
    c.aOffset.Prime ∧ t.mr * c.k < c.aOffset := by
  have hk : c.k ∈ kSweep t := (sizes_mem_of_mem_testCases (s := aOffset) (by decide) hc).2.1
  have hoffset : c.aOffset = primeOffset t := by
    rw [testCases_eq_map t (by decide)] at hc
    obtain ⟨b, -, rfl⟩ := List.mem_map.mp hc
    rfl
  rw [hoffset]
  refine ⟨prime_nextPrime _, ?_⟩
  calc t.mr * c.k ≤ t.mr * (5 * t.kBlock) := Nat.mul_le_mul_left _ (le_of_mem_kSweep hk).2
    _ = t.mr * t.kBlock * 5 := by ring
    _ < primeOffset t := le_nextPrime _

/-! ## Coverage -/

/-- What the scenarios cover on a tile shape. -/
structure Covering (t : TileShape) : Prop where
  /-- Every test case is valid, with whatever settings it is run. -/
  valid : ∀ s, ∀ c ∈ testCases t s, ∀ settings, { c with settings := settings }.validate = .ok ()
  /-- Only the parts and the multiples of a block of one position are missing. -/
  eq_nil_iff : ∀ s, testCases t s = [] ↔
    t.kBlock = 1 ∧ s ∈ [kLt, kLtSubtile, kDiv, kDivSubtile]
  /-- Less than a block, a block and more than one are the depths below two blocks, each once. -/
  depths : 1 < t.kBlock →
    (testCases t kLt ++ testCases t kEq ++ testCases t kGt).map TestCase.k =
      List.range' 1 (2 * t.kBlock - 1)
  /-- More columns than a tile has are never whole tiles, where tiles have more than one. -/
  above : ∀ s ∈ [nGt, nGtStridedCn, nGtSubtile, nGtSmallKernel], ∀ c ∈ testCases t s,
    t.nr < c.n ∧ (1 < t.nr → ¬t.nr ∣ c.n)
  /-- Multiples of a tile are two and three tiles. -/
  multiples : ∀ s ∈ [nDiv, nDivStridedCn, nDivSubtile, nDivSmallKernel], ∀ n,
    (∃ c ∈ testCases t s, c.n = n) ↔ n = 2 * t.nr ∨ n = 3 * t.nr
  /-- At each of its depths, a scenario on parts of a tile has each part once. -/
  subtile : ∀ s ∈ [kEqSubtile, kLtSubtile, kGtSubtile, kDivSubtile, smallKernelSubtile,
      stridedCmSubtile], ∀ k, (∃ c ∈ testCases t s, c.k = k) → ∀ m n,
    ((testCases t s).map fun c ↦ (c.n, c.k, c.m)).count (n, k, m) =
      if 1 ≤ m ∧ m ≤ t.mr ∧ 1 ≤ n ∧ n ≤ t.nr then 1 else 0
  /-- Offsets are primes that no row reaches. -/
  offset : ∀ s ∈ [aOffset, zero], ∀ c ∈ testCases t s, c.aOffset.Prime ∧ t.mr * c.k < c.aOffset
  /-- Every row of the tile comes up as padding. -/
  zeroIndex : ∀ z, (∃ c ∈ testCases t zero, c.zeroIndex = some z) ↔ z < t.mr

/-- **The scenarios are valid and cover what they are about,** whatever the tile shape. -/
theorem testCases_covering {t : TileShape} (hmr : 0 < t.mr) (hnr : 0 < t.nr) (hkr : 0 < t.kr)
    (hsr : 0 < t.sr) : Covering t := by
  have hkb : 0 < t.kBlock := TileShape.kBlock_pos hkr hsr
  constructor
  case valid =>
    intro s c hc settings
    have hvalid : c.validate = .ok () :=
      TestCase.validate_eq_ok_iff.mpr (valid_of_mem_testCases hmr hnr hkr hsr hc)
    exact hvalid
  case eq_nil_iff => exact testCases_eq_nil_iff hmr hnr hkr hsr
  case depths =>
    intro hblock
    have hlt : (testCases t kLt).map TestCase.k = kBelow t := map_k_grid ..
    have heq : (testCases t kEq).map TestCase.k = [t.kBlock] := map_k_grid ..
    have hgt : (testCases t kGt).map TestCase.k = kAbove t := map_k_grid ..
    rw [List.map_append, List.map_append, hlt, heq, hgt, depths_consecutive hblock]
  case above =>
    intro s hs c hc
    obtain ⟨hplain, hcolumns⟩ : s ≠ zero ∧ s.columns t = nAbove t := by
      fin_cases hs <;> exact ⟨by decide, rfl⟩
    have hn := (sizes_mem_of_mem_testCases hplain hc).1
    rw [hcolumns] at hn
    exact lt_of_mem_nAbove hn
  case multiples =>
    intro s hs n
    obtain ⟨hplain, hcolumns, hdepths⟩ :
        s ≠ zero ∧ s.columns t = nMultiples t ∧ s.depths t = kSweep t := by
      fin_cases hs <;> exact ⟨by decide, rfl, rfl⟩
    have hne : s.depths t ≠ [] := by
      rw [hdepths]
      exact kSweep_ne_nil hkb
    rw [exists_columns_iff hplain hmr hne, hcolumns, mem_nMultiples]
  case subtile =>
    intro s hs k hk m n
    obtain ⟨hplain, hcolumns, hrows⟩ :
        s ≠ zero ∧ s.columns t = allN t ∧ s.rows t = allM t := by
      fin_cases hs <;> exact ⟨by decide, rfl, rfl⟩
    obtain ⟨c, hc, rfl⟩ := hk
    have hdepth : c.k ∈ s.depths t := (sizes_mem_of_mem_testCases hplain hc).2.1
    refine (count_sizes hplain hnr hkb n c.k m).trans (if_congr ?_ rfl rfl)
    rw [hcolumns, hrows, mem_allN, mem_allM, and_iff_right hdepth]
    omega
  case offset =>
    intro s hs c hc
    fin_cases hs
    · exact aOffset_of_mem hc
    · obtain ⟨z, -, b, hb, rfl⟩ := mem_testCases_zero.mp hc
      -- a padding row changes neither the offset nor the depth
      have hoffset : b.aOffset.Prime ∧ t.mr * b.k < b.aOffset := aOffset_of_mem hb
      exact hoffset
  case zeroIndex =>
    intro z
    constructor
    · rintro ⟨c, hc, hz⟩
      obtain ⟨z', hz', b, -, rfl⟩ := mem_testCases_zero.mp hc
      cases hz
      exact hz'
    · intro hz
      obtain ⟨b, hb⟩ := exists_mem_aOffset hmr hnr hkr hsr
      exact ⟨_, mem_testCases_zero.mpr ⟨z, hz, b, hb, rfl⟩, rfl⟩

/-- A tile whose groups of two are rotated, so that a block has four positions. -/
def sampleRotatedTile : TileShape := ⟨3, 2, 2, 2⟩

theorem sampleRotatedTile_covering :
    (0 < sampleRotatedTile.mr ∧ 0 < sampleRotatedTile.nr ∧ 0 < sampleRotatedTile.kr ∧
      0 < sampleRotatedTile.sr) ∧ Covering sampleRotatedTile :=
  ⟨by decide, testCases_covering (by decide) (by decide) (by decide) (by decide)⟩

end QuantizedGemm.Scenario
