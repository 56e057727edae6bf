import QuantizedGemm.OutputQuantization
import QuantizedGemm.Proofs.Quantization.Agreement

/-!
# Derived scales

A scale that is derived from accumulators is the reciprocal of a step, rounded three times on the
way: as a quotient, to 32 bits, and as a reciprocal. Every family of parameters accepts such a scale
(`OutputQuantization.validate_ofAccumulators`).

## Bounds instead of errors

Representable bounds pass through each rounding unchanged (`Binary.Between`). So the step of any
accumulators of 32 bits stays within `[1 + 2 ^ -17, 2 ^ 25]`, and the scale within `[2 ^ -25, 1 - 2
^ -18]`, and the error of no rounding has to be estimated. The lower bound of the step is the one
that matters: it exceeds one by enough to show in 32 bits, which keeps the scale away from one,
where the fixed-point family ends.
-/

namespace QuantizedGemm

namespace Binary

variable {f g : Format}

/-- A finite word without a sign, between two numbers. -/
structure Between (x : Binary f) (lo hi : ℚ) : Prop where
  isFinite : x.isFinite
  isNegative : x.isNegative = false
  le_toRat : lo ≤ x.toRat
  toRat_le : x.toRat ≤ hi

variable {x y : Binary f} {a b c d lo hi : ℚ}

theorem between_nearest (hf : 0 < f.precision) (hlo : f.Represents lo) (hhi : f.Represents hi)
    {q : ℚ} (hle : lo ≤ q) (hge : q ≤ hi) :
    (ofMagnitude false (f.nearest q) : Binary f).Between lo hi := by
  have hlow := hlo.le_value_nearest hle
  obtain ⟨hfinite, hhigh⟩ := hhi.value_nearest_le (hlo.nonneg.trans hle) hge
  have hsign := hfinite.trans (infinityBits_lt_signBit hf)
  have hrat : (ofMagnitude false (f.nearest q) : Binary f).toRat = f.value (f.nearest q) :=
    toRat_ofMagnitude hf false hsign
  exact ⟨isFinite_ofMagnitude hf false hfinite, isNegative_ofMagnitude hf false hsign,
    hrat ▸ hlow, hrat ▸ hhigh⟩

theorem between_ofRat (hf : 0 < f.precision) (hlo : f.Represents lo) (hhi : f.Represents hi)
    {q : ℚ} (hle : lo ≤ q) (hge : q ≤ hi) : (ofRat q : Binary f).Between lo hi := by
  rw [ofRat, if_neg (not_lt.mpr (hlo.nonneg.trans hle))]
  exact between_nearest hf hlo hhi hle hge

theorem between_ofInt (hf : 0 < f.precision) {n : ℤ} (hn : f.Represents (n : ℚ)) :
    (ofInt n : Binary f).Between n n := by
  rw [ofInt_eq]
  exact between_ofRat hf hn hn le_rfl le_rfl

theorem Between.div (hf : 0 < f.precision) (hx : x.Between a b) (hy : y.Between c d) (hc : 0 < c)
    (hlo : f.Represents lo) (hhi : f.Represents hi) (hle : lo * d ≤ a) (hge : b ≤ hi * c) :
    (x / y).Between lo hi := by
  have hpos : 0 < y.toRat := hc.trans_le hy.le_toRat
  have hdiv : x / y = ofMagnitude false (f.nearest (x.toRat / y.toRat)) := by
    rw [div_of_isFinite hx.isFinite hy.isFinite (isZero_of_toRat_pos hpos), hx.isNegative,
      hy.isNegative, toRat_of_isNegative hx.isNegative, toRat_of_isNegative hy.isNegative]
    rfl
  rw [hdiv]
  refine between_nearest hf hlo hhi ?_ ?_
  · rw [le_div_iff₀ hpos]
    calc lo * y.toRat ≤ lo * d := mul_le_mul_of_nonneg_left hy.toRat_le hlo.nonneg
      _ ≤ x.toRat := hle.trans hx.le_toRat
  · rw [div_le_iff₀ hpos]
    calc x.toRat ≤ hi * c := hx.toRat_le.trans hge
      _ ≤ hi * y.toRat := mul_le_mul_of_nonneg_left hy.le_toRat hhi.nonneg

theorem Between.convert (hg : 0 < g.precision) (hx : x.Between lo hi) (hlo : g.Represents lo)
    (hhi : g.Represents hi) : (x.convert : Binary g).Between lo hi := by
  rw [convert_of_isFinite hx.isFinite, hx.isNegative]
  refine between_nearest hg hlo hhi ?_ ?_
  · rw [← toRat_of_isNegative hx.isNegative]
    exact hx.le_toRat
  · rw [← toRat_of_isNegative hx.isNegative]
    exact hx.toRat_le

end Binary

namespace OutputQuantization

open Binary

/-! ## Bounds of the step -/

/-- The extremes of numbers lie within any range around zero that holds them all. -/
theorem extremes_mem {lo hi : ℤ} (hlo : lo ≤ 0) (hhi : 0 ≤ hi) {l : List ℤ}
    (h : ∀ x ∈ l, lo ≤ x ∧ x ≤ hi) :
    (lo ≤ (extremes l).1 ∧ (extremes l).1 ≤ hi) ∧ lo ≤ (extremes l).2 ∧ (extremes l).2 ≤ hi := by
  cases l with
  | nil => exact ⟨⟨hlo, hhi⟩, hlo, hhi⟩
  | cons x xs =>
    have hx := h x List.mem_cons_self
    refine ⟨xs.foldlRecOn (motive := fun b ↦ lo ≤ b ∧ b ≤ hi) min hx fun b hb a ha ↦ ?_,
      xs.foldlRecOn (motive := fun b ↦ lo ≤ b ∧ b ≤ hi) max hx fun b hb a ha ↦ ?_⟩
    · exact ⟨le_min hb.1 (h a (List.mem_cons_of_mem x ha)).1, (min_le_left b a).trans hb.2⟩
    · exact ⟨hb.1.trans (le_max_left b a), max_le hb.2 (h a (List.mem_cons_of_mem x ha)).2⟩

theorem extremes_toInt_mem (accumulators : List Int32) :
    let e := extremes (accumulators.map Int32.toInt)
    (-2 ^ 31 ≤ e.1 ∧ e.1 ≤ 2 ^ 31 - 1) ∧ -2 ^ 31 ≤ e.2 ∧ e.2 ≤ 2 ^ 31 - 1 := by
  refine extremes_mem (by norm_num) (by norm_num) fun x hx ↦ ?_
  obtain ⟨acc, -, rfl⟩ := List.mem_map.mp hx
  exact ⟨acc.le_toInt, Int.le_sub_one_of_lt acc.toInt_lt⟩

theorem range_extremes_lt (accumulators : List Int32) :
    (extremes (accumulators.map Int32.toInt)).2 - (extremes (accumulators.map Int32.toInt)).1 <
      2 ^ 32 := by
  have hextremes := extremes_toInt_mem accumulators
  omega

theorem represents_double {q : ℚ} (n : ℕ) (e : ℤ) (hq : (n : ℚ) * (2 : ℚ) ^ e = q)
    (hn : n < 2 ^ 53) (hlow : -1074 ≤ e) (hhigh : e ≤ 971) : Format.double.Represents q := by
  rw [← hq]
  exact Format.represents_of_exponent_le (by decide) (by decide) hn hlow
    (show e + 53 ≤ 1024 by omega)

/-- The step exceeds one by enough to show in 32 bits. -/
theorem step_between {range : ℤ} (h : range < 2 ^ 32) :
    (step range).Between (131073 / 131072) (2 ^ 25) := by
  have hlo : Format.double.Represents (131073 / 131072) :=
    represents_double 131073 (-17) (by norm_num) (by norm_num) (by norm_num) (by norm_num)
  have hhi : Format.double.Represents (2 ^ 25) :=
    represents_double 1 25 (by norm_num) (by norm_num) (by norm_num) (by norm_num)
  unfold step
  split_ifs with hwide
  · lift range to ℕ using by omega
    have hrange : Format.double.Represents ((range : ℤ) : ℚ) :=
      represents_double range 0 (by norm_num) (by omega) (by norm_num) (by norm_num)
    have h255 : Format.double.Represents ((255 : ℤ) : ℚ) :=
      represents_double 255 0 (by norm_num) (by norm_num) (by norm_num) (by norm_num)
    have hwide' : (256 : ℚ) ≤ ((range : ℤ) : ℚ) := by exact_mod_cast hwide
    have hnarrow : ((range : ℤ) : ℚ) ≤ 2 ^ 32 := by exact_mod_cast h.le
    refine (between_ofInt (by decide) hrange).div (by decide) (between_ofInt (by decide) h255)
      (by norm_num) hlo hhi ?_ ?_
    · push_cast at hwide' ⊢
      linarith
    · push_cast at hnarrow ⊢
      linarith
  · exact between_ofRat (by decide) hlo hhi (by norm_num) (by norm_num)

/-- A derived scale is less than one, and far above the least scale. -/
theorem scale_between (accumulators : List Int32) :
    (ofAccumulators accumulators).scale.Between (2 ^ (-25 : ℤ)) (262143 / 262144) := by
  have hlo : Format.single.Represents (131073 / 131072) :=
    represents_single 131073 (-17) (by norm_num) (by norm_num) (by norm_num) (by norm_num)
  have hone : Format.single.Represents ((1 : ℤ) : ℚ) :=
    represents_single 1 0 (by norm_num) (by norm_num) (by norm_num) (by norm_num)
  have hleast : Format.single.Represents (2 ^ (-25 : ℤ)) :=
    represents_single 1 (-25) (by norm_num) (by norm_num) (by norm_num) (by norm_num)
  have hgreatest : Format.single.Represents (262143 / 262144) :=
    represents_single 262143 (-18) (by norm_num) (by norm_num) (by norm_num) (by norm_num)
  have hstep := (step_between (range_extremes_lt accumulators)).convert (g := .single)
    (by decide) hlo (represents_two_pow (by norm_num))
  exact (between_ofInt (by decide) hone).div (by decide) hstep (by norm_num) hleast hgreatest
    (by norm_num) (by norm_num)

/-- Every family accepts a derived scale, the fixed-point one included. -/
theorem validate_ofAccumulators {a : QuantizationArgs} {accumulators : List Int32}
    (hscale : a.scale = (ofAccumulators accumulators).scale) (hrange : a.outputMin ≤ a.outputMax) :
    a.validate QuantizationArgs.maxFixedScale = .ok () := by
  have hbetween := scale_between accumulators
  rw [← hscale] at hbetween
  refine (QuantizationArgs.validate_eq_ok_iff_toRat QuantizationArgs.toRat_maxFixedScale).mpr
    ⟨hbetween.isFinite, le_trans (by norm_num) hbetween.le_toRat,
      lt_of_le_of_lt hbetween.toRat_le (by norm_num), hrange⟩

end OutputQuantization

end QuantizedGemm
