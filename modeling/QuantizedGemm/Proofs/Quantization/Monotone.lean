import QuantizedGemm.Proofs.Quantization.Families

/-!
# Requantization keeps the order of accumulators

Every stage of the floating-point references is monotone: an accumulator is rounded to a word, a
product with a positive scale to a word that may be an infinity, the clamped product to an integer.

## Overflows

The order of words is that of their ranks, infinities included, so that clamping keeps it as well
(`Binary.toRat_clamp_mono`) and a product that overflows needs no case of its own.

## The last sum

Clamping comes last before the integer is formed, and its bounds are integers. Hence the sum with
the zero point is the output as an integer, before anything is narrowed, whatever the scale is
(`toNat_requantizeFp32_eq`).
-/

namespace QuantizedGemm

namespace Binary

variable {f : Format} {x y lo hi : Binary f}

/-! ## Words in order -/

theorem toRat_le_iff_rank : x.toRat ≤ y.toRat ↔ x.rank ≤ y.rank := by
  have hmono : StrictMono f.signedValue := fun _ _ ↦ f.signedValue_lt_signedValue
  rw [toRat_eq_signedValue, toRat_eq_signedValue, hmono.le_iff_le]

/-- A product of finite words is a number, even where it overflows. -/
theorem isNaN_mul (hf : 0 < f.precision) (hx : x.isFinite) (hy : y.isFinite) :
    (x * y).isNaN = false := by
  have hle := f.nearest_le_infinityBits (f.value x.magnitude * f.value y.magnitude)
  rw [mul_of_isFinite hx hy, isNaN,
    magnitude_ofMagnitude hf _ (hle.trans_lt (infinityBits_lt_signBit hf))]
  exact decide_eq_false (not_lt.mpr hle)

theorem toRat_clamp_mono (hx : x.isNaN = false) (hy : y.isNaN = false) (hlo : lo.isFinite)
    (hhi : hi.isFinite) (h : x.toRat ≤ y.toRat) :
    ((x.maxNum lo).minNum hi).toRat ≤ ((y.maxNum lo).minNum hi).toRat := by
  rw [toRat_le_iff_rank] at h ⊢
  rw [rank_clamp hx hlo hhi, rank_clamp hy hlo hhi]
  exact min_le_min_right _ (max_le_max_right _ h)

end Binary

open Binary

/-! ## The clamped product -/

section Clamped

theorem toRat_int32ToBinary_mono {a b : Int32} (h : a ≤ b) :
    (int32ToBinary a).toRat ≤ (int32ToBinary b).toRat := by
  have hle : (a.toInt : ℚ) ≤ b.toInt := Int.cast_le.mpr (Int32.le_iff_toInt_le.mp h)
  rw [int32ToBinary, int32ToBinary, ofInt_eq, ofInt_eq]
  exact toRat_ofRat_mono (by decide) hle

variable (input : Int32) {scale : Binary32} (zeroPoint lower upper : UInt8)

theorem toRat_clampedProduct_mono (hfin : scale.isFinite) (hpos : 0 ≤ scale.toRat) {a b : Int32}
    (h : a ≤ b) :
    (clampedProduct a scale zeroPoint lower upper).toRat ≤
      (clampedProduct b scale zeroPoint lower upper).toRat := by
  have ha := (toRat_int32ToBinary_bounds a).1
  have hb := (toRat_int32ToBinary_bounds b).1
  have hproduct : (int32ToBinary a * scale).toRat ≤ (int32ToBinary b * scale).toRat := by
    rw [toRat_mul (by decide) ha hfin, toRat_mul (by decide) hb hfin]
    refine toRat_ofRat_mono (by decide) ?_
    exact mul_le_mul_of_nonneg_right (toRat_int32ToBinary_mono h) hpos
  exact toRat_clamp_mono (isNaN_mul (by decide) ha hfin) (isNaN_mul (by decide) hb hfin)
    (toRat_lessZeroPoint lower zeroPoint).1 (toRat_lessZeroPoint upper zeroPoint).1 hproduct

variable (scale) in
/-- The reference adds the zero point to the integer of the clamped product, and the sum is a
byte. -/
theorem toNat_requantizeFp32_eq :
    ((requantizeFp32 input scale zeroPoint lower upper).toNat : ℤ) =
      roundHalfEven (clampedProduct input scale zeroPoint lower upper).toRat + zeroPoint.toNat := by
  obtain ⟨hlo, hloQ⟩ := toRat_lessZeroPoint lower zeroPoint
  obtain ⟨hhi, hhiQ⟩ := toRat_lessZeroPoint upper zeroPoint
  obtain ⟨-, hge, hle⟩ := clamp_mem (int32ToBinary input * scale) hlo hhi
  rw [hloQ, hhiQ, ← Int.cast_min] at hge
  rw [hhiQ] at hle
  -- the bounds are integers, and rounding does not cross them
  have h₀ := le_roundHalfEven hge
  have h₁ := roundHalfEven_le hle
  have hl := lower.toNat_lt
  have hu := upper.toNat_lt
  rw [requantizeFp32_eq, clampedProduct, toNat_lowByte_ofInt (by omega) (by omega)]

end Clamped

/-- **The floating-point references keep the order of accumulators and the output range.** With a
finite positive scale, however small or large, a greater accumulator has no lesser output. With any
scale, undefined ones included, the output lies in the range; it is the integer that the last sum of
the computation has without wrapping around, so that nothing is lost when this sum is narrowed to a
byte. -/
theorem fp32_references_monotone {lower upper : UInt8} (h : lower ≤ upper) (scale : Binary32)
    (zeroPoint : UInt8) :
    (scale.isFinite → 0 < scale.toRat → ∀ a b : Int32, a ≤ b →
      requantizeFp32 a scale zeroPoint lower upper ≤ requantizeFp32 b scale zeroPoint lower upper ∧
      requantizeFp32Magic a scale zeroPoint lower upper ≤
        requantizeFp32Magic b scale zeroPoint lower upper) ∧
    ∀ input : Int32,
      (lower ≤ requantizeFp32 input scale zeroPoint lower upper ∧
        requantizeFp32 input scale zeroPoint lower upper ≤ upper) ∧
      (lower ≤ requantizeFp32Magic input scale zeroPoint lower upper ∧
        requantizeFp32Magic input scale zeroPoint lower upper ≤ upper) ∧
      ((requantizeFp32 input scale zeroPoint lower upper).toNat : ℤ) =
        (clampedProduct input scale zeroPoint lower upper).toInt32Saturating.toInt +
          zeroPoint.toNat ∧
      ((requantizeFp32Magic input scale zeroPoint lower upper).toNat : ℤ) =
        (clampedProduct input scale zeroPoint lower upper + magicBias).signedBits.toInt -
          (magicBiasBits.toInt - zeroPoint.toNat) := by
  have hmagic : ∀ input, requantizeFp32Magic input scale zeroPoint lower upper =
      requantizeFp32 input scale zeroPoint lower upper := by
    intro input
    rw [requantizeFp32Magic_eq, requantizeFp32_eq]
  simp only [hmagic]
  refine ⟨fun hfin hpos a b hab ↦ ?_, fun input ↦ ?_⟩
  · have hround := roundHalfEven_mono
      (toRat_clampedProduct_mono zeroPoint lower upper hfin hpos.le hab)
    have hle : requantizeFp32 a scale zeroPoint lower upper ≤
        requantizeFp32 b scale zeroPoint lower upper := by
      rw [UInt8.le_iff_toNat_le, ← Int.ofNat_le, toNat_requantizeFp32_eq, toNat_requantizeFp32_eq]
      exact Int.add_le_add_right hround _
    exact ⟨hle, hle⟩
  · have hmem : lower ≤ requantizeFp32 input scale zeroPoint lower upper ∧
        requantizeFp32 input scale zeroPoint lower upper ≤ upper := requantizeFp32_mem h
    refine ⟨hmem, hmem, ?_, ?_⟩
    · rw [toNat_requantizeFp32_eq, toInt_toInt32Saturating_clampedProduct]
    · rw [toNat_requantizeFp32_eq, toInt_signedBits_clampedProduct]
      ring

/-- The greatest scale takes a product to infinity, and clamping brings it back. -/
theorem fp32_references_monotone_of_overflow :
    (20 : UInt8) ≤ 200 ∧ (.ofBits 0x7F7FFFFF : Binary32).isFinite ∧
    0 < (.ofBits 0x7F7FFFFF : Binary32).toRat ∧ (-2 : Int32) ≤ 2 ∧
    (int32ToBinary 2 * .ofBits 0x7F7FFFFF).isInfinite ∧
    requantizeFp32 (-2) (.ofBits 0x7F7FFFFF) 100 20 200 ≤
      requantizeFp32 2 (.ofBits 0x7F7FFFFF) 100 20 200 ∧
    requantizeFp32 (-2) (.ofBits 0x7F7FFFFF) 100 20 200 = 20 ∧
    requantizeFp32 2 (.ofBits 0x7F7FFFFF) 100 20 200 = 200 := by
  have hfin : (.ofBits 0x7F7FFFFF : Binary32).isFinite := by decide
  have hpos : 0 < (.ofBits 0x7F7FFFFF : Binary32).toRat := by decide +kernel
  have hrange : (20 : UInt8) ≤ 200 := by decide
  have hinputs : (-2 : Int32) ≤ 2 := by decide
  refine ⟨hrange, hfin, hpos, hinputs, by decide +kernel, ?_, by decide +kernel, by decide +kernel⟩
  exact ((fp32_references_monotone hrange _ 100).1 hfin hpos (-2) 2 hinputs).1

end QuantizedGemm
