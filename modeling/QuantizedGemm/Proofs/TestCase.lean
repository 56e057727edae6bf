import QuantizedGemm.Proofs.Outcome
import QuantizedGemm.Proofs.Tile
import QuantizedGemm.TestCase

/-!
# Valid test cases

What the validation of a test case establishes (`TestCase.validate_eq_ok_iff`), and what follows
from it about the place of the outputs.

## Why rows and tiles stay apart

Validation looks at the two strides one at a time. The distance of column tiles is at least their
width. The distance of rows is at least the extent of one row, or there is a single row and nothing
to keep apart. A stride that is not given follows from the other one and then satisfies its
condition by itself (`TestCase.rowExtent_le_cmStride`). Together this is `StridesDisjoint`, which is
all that later files use of the strides.
-/

namespace QuantizedGemm.TestCase

/-- What validation establishes. -/
structure Valid (t : TestCase) : Prop where
  mr_pos : 0 < t.shape.mr
  nr_pos : 0 < t.shape.nr
  kr_pos : 0 < t.shape.kr
  sr_pos : 0 < t.shape.sr
  m_pos : 0 < t.m
  n_pos : 0 < t.n
  k_pos : 0 < t.k
  ks_pos : 0 < t.ks
  m_le : t.m ≤ t.shape.mr
  zeroIndex : ∀ z, t.zeroIndex = some z → z < t.shape.mr
  cnStride : t.shape.nr ≤ t.cnStride
  cmStride : t.m ≤ 1 ∨ t.rowExtent ≤ t.cmStride
  range : t.qmin ≤ t.qmax

variable {t : TestCase}

theorem find?_positiveSizes_eq_none_iff :
    (t.positiveSizes.find? fun p ↦ p.2 == 0) = none ↔
      0 < t.shape.mr ∧ 0 < t.shape.nr ∧ 0 < t.shape.kr ∧ 0 < t.shape.sr ∧
        0 < t.m ∧ 0 < t.n ∧ 0 < t.k ∧ 0 < t.ks := by
  rw [List.find?_eq_none]
  simp [positiveSizes, Nat.pos_iff_ne_zero]

@[simp] theorem validate_eq_ok_iff : t.validate = .ok () ↔ t.Valid := by
  have hchecks : t.validate = .ok () ↔
      (t.positiveSizes.find? fun p ↦ p.2 == 0) = none ∧ ¬t.shape.mr < t.m ∧
        (∀ z, t.zeroIndex = some z → ¬t.shape.mr ≤ z) ∧ ¬t.cnStride < t.shape.nr ∧
          ¬(1 < t.m ∧ t.cmStride < t.rowExtent) ∧ ¬t.qmax < t.qmin := by
    unfold validate
    simp only []
    split
    case h_1 p name size hfind =>
      refine ⟨nofun, fun h ↦ ?_⟩
      rw [h.1] at hfind
      cases hfind
    case h_2 p hfind =>
      have hnone : (t.positiveSizes.find? fun p ↦ p.2 == 0) = none :=
        Option.eq_none_iff_forall_ne_some.mpr fun q hq ↦ hfind q.1 q.2 hq
      rw [and_iff_right hnone, refuse_if_eq_ok_iff]
      refine and_congr_right fun _ ↦ ?_
      -- the padding row is only checked where there is one
      split
      case h_1 z hz =>
        rw [refuse_if_eq_ok_iff, refuse_if_eq_ok_iff, refuse_if_eq_ok_iff, refuse_last_eq_ok_iff]
        refine and_congr_left fun _ ↦ ⟨fun h z' hz' ↦ ?_, fun h ↦ h z hz⟩
        obtain rfl : z = z' := Option.some.inj (hz.symm.trans hz')
        exact h
      case h_2 hz =>
        rw [refuse_if_eq_ok_iff, refuse_if_eq_ok_iff, refuse_last_eq_ok_iff]
        exact (and_iff_right fun z hz' ↦ absurd hz' (hz z)).symm
  rw [hchecks, find?_positiveSizes_eq_none_iff]
  constructor
  · rintro ⟨⟨hmr, hnr, hkr, hsr, hm, hn, hk, hks⟩, hmle, hzero, hcn, hcm, hrange⟩
    exact ⟨hmr, hnr, hkr, hsr, hm, hn, hk, hks, by omega, fun z hz ↦ Nat.lt_of_not_le (hzero z hz),
      by omega, by omega, UInt8.not_lt.mp hrange⟩
  · rintro ⟨hmr, hnr, hkr, hsr, hm, hn, hk, hks, hmle, hzero, hcn, hcm, hrange⟩
    exact ⟨⟨hmr, hnr, hkr, hsr, hm, hn, hk, hks⟩, by omega, fun z hz ↦ Nat.not_le.mpr (hzero z hz),
      by omega, by omega, UInt8.not_lt.mpr hrange⟩

theorem Valid.stridesDisjoint (h : t.Valid) :
    StridesDisjoint t.m t.n t.shape.nr t.cmStride t.cnStride := by
  refine ⟨Or.inl h.cnStride, ?_⟩
  have hm := h.m_pos
  have hn := h.n_pos
  rcases h.cmStride with hone | hextent
  · exact Or.inr (by omega)
  · rw [rowExtent, outputLength, if_neg (by omega)] at hextent
    exact Or.inl (by omega)

/-! ## Distances of rows -/

/-- A row ends before the distance that follows from its column tiles. -/
theorem rowExtent_le_cmStride (hnr : 0 < t.shape.nr) (hn : 0 < t.n)
    (hcn : t.shape.nr ≤ t.cnStride) (hgiven : t.givenCmStride = none) :
    t.rowExtent ≤ t.cmStride := by
  have htiles : divideUp t.n t.shape.nr = (t.n - 1) / t.shape.nr + 1 := by
    rw [divideUp, ← Nat.add_div_right _ hnr]
    congr 1
    omega
  have hmod := Nat.mod_lt (t.n - 1) hnr
  rw [cmStride, hgiven, Option.getD_none, htiles, Nat.mul_comm, Nat.succ_mul, rowExtent,
    outputLength, if_neg (by omega)]
  omega

theorem rowExtent_of_le (hn : 0 < t.n) (hle : t.n ≤ t.shape.nr) : t.rowExtent = t.n := by
  rw [rowExtent, outputLength, if_neg (by omega), Nat.div_eq_of_lt (by omega),
    Nat.mod_eq_of_lt (by omega)]
  omega

end QuantizedGemm.TestCase
