import QuantizedGemm.Proofs.OutputQuantization

/-!
# Derived zero points

The center of accumulators comes from a product, a quotient and a difference, and may lie on either
side of zero. A zero point is the integer nearest to it, held in the range of a byte
(`OutputQuantization.toNat_zeroPoint`).

## Why the center is a number

None of the three operations comes near an overflow: the sum of two accumulators has 33 bits, and a
step of at least one does not stretch it (`OutputQuantization.center_within`). As signs differ, the
bounds are on the size this time (`Binary.Within`). Then nothing but the clamp to a byte happens to
the nearest integer.
-/

namespace QuantizedGemm

namespace Binary

variable {f : Format}

/-- A finite word that is not further from zero than a number. -/
structure Within (x : Binary f) (b : ℚ) : Prop where
  isFinite : x.isFinite
  abs_le : |x.toRat| ≤ b

variable {x y : Binary f} {a b c d : ℚ}

theorem within_ofRat (hf : 0 < f.precision) (hb : f.Represents b) {q : ℚ} (h : |q| ≤ b) :
    (ofRat q : Binary f).Within b := by
  obtain ⟨hfinite, hle⟩ := toRat_ofRat_bounds hf hb h
  exact ⟨hfinite, hle⟩

theorem within_nearest (hf : 0 < f.precision) (hb : f.Represents b) (negative : Bool) {q : ℚ}
    (hq : 0 ≤ q) (h : q ≤ b) : (ofMagnitude negative (f.nearest q) : Binary f).Within b := by
  obtain ⟨hfinite, hle⟩ := hb.value_nearest_le hq h
  have hsign := hfinite.trans (infinityBits_lt_signBit hf)
  refine ⟨isFinite_ofMagnitude hf negative hfinite, ?_⟩
  rw [abs_toRat, magnitude_ofMagnitude hf negative hsign]
  exact hle

theorem Within.mul (hf : 0 < f.precision) (hx : x.Within a) (hy : y.Within c)
    (hb : f.Represents b) (h : a * c ≤ b) : (x * y).Within b := by
  rw [mul_of_isFinite hx.isFinite hy.isFinite, ← abs_toRat, ← abs_toRat]
  refine within_nearest hf hb _ (by positivity) (le_trans ?_ h)
  exact mul_le_mul hx.abs_le hy.abs_le (abs_nonneg _) ((abs_nonneg _).trans hx.abs_le)

theorem Within.div (hf : 0 < f.precision) (hx : x.Within a) (hy : y.Between c d) (hc : 0 < c)
    (hb : f.Represents b) (h : a ≤ b * c) : (x / y).Within b := by
  have hpos : 0 < y.toRat := hc.trans_le hy.le_toRat
  rw [div_of_isFinite hx.isFinite hy.isFinite (isZero_of_toRat_pos hpos), ← abs_toRat,
    ← toRat_of_isNegative hy.isNegative]
  refine within_nearest hf hb _ (by positivity) ?_
  rw [div_le_iff₀ hpos]
  calc |x.toRat| ≤ b * c := hx.abs_le.trans h
    _ ≤ b * y.toRat := mul_le_mul_of_nonneg_left hy.le_toRat hb.nonneg

theorem Within.sub (hf : 0 < f.precision) (hx : x.Within a) (hy : y.Within c)
    (hb : f.Represents b) (h : a + c ≤ b) : (x - y).Within b := by
  change (x + -y).Within b
  rw [add_of_isFinite hx.isFinite (isFinite_neg hf hy.isFinite), toRat_neg hf hy.isFinite]
  split_ifs
  · -- a difference of zero has a sign of its own
    have hzero : f.nearest 0 = 0 := if_pos rfl
    rw [← hzero]
    exact within_nearest hf hb _ le_rfl hb.nonneg
  · refine within_ofRat hf hb ?_
    calc |x.toRat + -y.toRat| ≤ |x.toRat| + |-y.toRat| := abs_add_le _ _
      _ = |x.toRat| + |y.toRat| := by rw [abs_neg]
      _ ≤ b := (add_le_add hx.abs_le hy.abs_le).trans h

end Binary

namespace OutputQuantization

open Binary

def centerOf (accumulators : List Int32) : Binary64 :=
  let e := extremes (accumulators.map Int32.toInt)
  center (e.1 + e.2) (step (e.2 - e.1))

/-- The center is a number: half of the sum has 32 bits, and its quotient by the step is not further
from zero. -/
theorem center_within {sum range : ℤ} (hsum : |sum| ≤ 2 ^ 32) (hrange : range < 2 ^ 32) :
    (center sum (step range)).Within (2 ^ 32) := by
  have hbound : ∀ n ≤ 32, Format.double.Represents (2 ^ n) := fun n hn ↦
    represents_double 1 n (by norm_num) (by norm_num) (by omega) (by omega)
  have hhalf : Format.double.Represents (1 / 2) :=
    represents_double 1 (-1) (by norm_num) (by norm_num) (by norm_num) (by norm_num)
  have hsumWord : (ofInt sum : Binary64).Within (2 ^ 32) := by
    rw [ofInt_eq]
    exact within_ofRat (by decide) (hbound 32 le_rfl) (by exact_mod_cast hsum)
  have hmiddle : (ofRat (255 / 2) : Binary64).Within (2 ^ 7) :=
    within_ofRat (by decide) (hbound 7 (by norm_num)) (by norm_num [abs_of_pos])
  have hhalfWord : (ofRat (1 / 2) : Binary64).Within (1 / 2) :=
    within_ofRat (by decide) hhalf (by norm_num [abs_of_pos])
  have hproduct := hhalfWord.mul (by decide) hsumWord (hbound 31 (by norm_num)) (by norm_num)
  have hquotient := hproduct.div (by decide) (step_between hrange) (by norm_num)
    (hbound 31 (by norm_num)) (by norm_num)
  exact hmiddle.sub (by decide) hquotient (hbound 32 le_rfl) (by norm_num)

theorem centerOf_within (accumulators : List Int32) :
    (centerOf accumulators).Within (2 ^ 32) := by
  have hextremes := extremes_toInt_mem accumulators
  have hsum : |(extremes (accumulators.map Int32.toInt)).1 +
      (extremes (accumulators.map Int32.toInt)).2| ≤ 2 ^ 32 := by
    rw [abs_le]
    omega
  exact center_within hsum (range_extremes_lt accumulators)

/-- The zero point is the nearest integer, and nothing but the clamp to a byte happens to it. -/
theorem toNat_zeroPoint (accumulators : List Int32) :
    ((ofAccumulators accumulators).zeroPoint.toNat : ℤ) =
      min (max (roundHalfEven (centerOf accumulators).toRat) 0) 255 := by
  rw [← nearestInt_eq]
  exact toNat_ofInt (by omega) (min_le_right _ _)

end OutputQuantization

end QuantizedGemm
