import QuantizedGemm.Proofs.Quantization.Derivation
import QuantizedGemm.Proofs.Quantization.FixedPoint

/-!
# The output stage of the fixed-point kernels

The fixed-point family accepts exactly the scales from `2 ^ -32` to below one. The stage is exact on
all of them: the product with the accumulator, rounded with halves up and held in the output range.

## Why nothing is lost

An accepted scale is taken apart into a multiplier and a shift without any error. The product with
an accumulator has 55 bits at most and fits 64. A scale below one makes the shifted sum no larger
than the accumulator, so that narrowing it to 32 bits keeps it, from the least accumulator to the
greatest one (`QuantizationArgs.toInt_shifted_mem`). The clamp comes after the narrowing, which is
why the bound on the scale is needed: for larger scales the reference wraps.
-/

namespace QuantizedGemm

open Binary

variable {a : QuantizationArgs}

theorem QuantizationArgs.represents_scale (h : a.validate maxFixedScale = .ok ()) :
    (FixedPoint.ofScale a.scale).Represents a.scale.toRat ∧
      24 ≤ (FixedPoint.ofScale a.scale).shift ∧ (FixedPoint.ofScale a.scale).shift < 56 := by
  obtain ⟨-, hlow, hhigh, -⟩ := (validate_eq_ok_iff_toRat toRat_maxFixedScale).mp h
  exact FixedPoint.represents_ofScale (k := 0) (by norm_num) hlow (by simpa using hhigh)

/-- Nothing is lost where the output of an accepted scale is narrowed. -/
theorem QuantizationArgs.toInt_shifted_mem (h : a.validate maxFixedScale = .ok ()) (acc : Int32) :
    -2 ^ 31 ≤ ((FixedPoint.ofScale a.scale).shifted acc).toInt ∧
      ((FixedPoint.ofScale a.scale).shifted acc).toInt < 2 ^ 31 := by
  obtain ⟨-, hlow, hhigh, -⟩ := (validate_eq_ok_iff_toRat toRat_maxFixedScale).mp h
  obtain ⟨hscale, hge, hlt⟩ := represents_scale h
  obtain ⟨h₀, h₁⟩ := roundHalfUp_mem_of_lt_one (by norm_num) (by norm_num) acc.le_toInt
    (Int.le_sub_one_of_lt acc.toInt_lt) (le_trans (by positivity) hlow) hhigh
  rw [hscale.toInt_shifted (by omega) hlt]
  exact ⟨h₀, by omega⟩

/-- No step of the stage overflows, and it computes the reference. -/
theorem rndnuParams_requantize (h : a.validate QuantizationArgs.maxFixedScale = .ok ())
    (acc : Int32) : a.rndnuParams.requantize acc =
      .ok (requantizeRndnu acc a.scale a.outputZeroPoint a.outputMin a.outputMax) := by
  obtain ⟨hscale, -, hlt⟩ := QuantizationArgs.represents_scale h
  -- the last steps, behind the one that arrives at the output in 64 bits
  let finish (out : Int64) : Except Fault UInt8 := do
    pure (lowByte (← checkedAdd (min (max out.toInt32
      (lessZeroPoint a.outputMin a.outputZeroPoint))
      (lessZeroPoint a.outputMax a.outputZeroPoint)) (byteToInt32 a.outputZeroPoint)))
  have hstage : a.rndnuParams.requantize acc = (do
      let product ← checkedMul64 acc.toInt64 (FixedPoint.ofScale a.scale).multiplier.toInt64
      let sum ← checkedAdd64 product (FixedPoint.ofScale a.scale).rounding
      checkedShiftRight64 sum (FixedPoint.ofScale a.scale).shift) >>= finish := by
    simp only [bind_assoc]
    rfl
  rw [hstage, hscale.checked hlt acc]
  change (checkedAdd _ _ >>= fun x ↦ pure (lowByte x)) = _
  rw [checkedAdd_clamp]
  rfl

/-- **The stage of the fixed-point kernels is exact.** The family accepts the scales from `2 ^ -32`
to below one with an output range that is not empty. Its multiplier of 24 bits and its shift stand
for the scale exactly. On every accumulator the sum in 64 bits does not overflow, the narrowing
loses nothing, and the output is the exact product, rounded with halves up and held in the output
range. It is the one of the reference. -/
theorem rndnu_stage_exact :
    (∀ a : QuantizationArgs, (∃ params, Family.rndnu.derive a = .ok params) ↔
      a.scale.isFinite = true ∧ (2 : ℚ) ^ (-32 : ℤ) ≤ a.scale.toRat ∧ a.scale.toRat < 1 ∧
        a.outputMin ≤ a.outputMax) ∧
    ∀ (a : QuantizationArgs) (params : Params), Family.rndnu.derive a = .ok params →
      ∃ p, params = .rndnu p ∧
        ((2 : ℤ) ^ 23 ≤ p.multiplier.toInt ∧ p.multiplier.toInt < (2 : ℤ) ^ 24) ∧
        (24 ≤ p.shift ∧ p.shift < 56) ∧
        (p.multiplier.toInt : ℚ) * (2 : ℚ) ^ (-(p.shift : ℤ)) = a.scale.toRat ∧
        ∀ acc : Int32,
          (acc.toInt64 * p.multiplier.toInt64 + p.rounding).toInt =
            acc.toInt * p.multiplier.toInt + 2 ^ (p.shift - 1) ∧
          (FixedPoint.scaleUpHalf p.multiplier p.rounding p.shift acc).toInt =
            ((acc.toInt64 * p.multiplier.toInt64 + p.rounding) >>> Int64.ofNat p.shift).toInt ∧
          ∃ y, p.requantize acc = .ok y ∧
            (y.toNat : ℤ) = clampedOutput a.outputZeroPoint a.outputMin a.outputMax
              (roundHalfUp (acc.toInt * a.scale.toRat)) ∧
            y = requantizeRndnu acc a.scale a.outputZeroPoint a.outputMin a.outputMax := by
  refine ⟨fun a ↦ ?_, fun a params hderive ↦ ?_⟩
  · rw [Family.exists_derive_iff, Family.maxScale,
      QuantizationArgs.validate_eq_ok_iff_toRat QuantizationArgs.toRat_maxFixedScale]
  obtain ⟨hvalid, rfl⟩ := Family.derive_eq_ok_iff.mp hderive
  rw [Family.maxScale] at hvalid
  obtain ⟨-, -, -, hrange⟩ :=
    (QuantizationArgs.validate_eq_ok_iff_toRat QuantizationArgs.toRat_maxFixedScale).mp hvalid
  obtain ⟨hscale, hge, hlt⟩ := QuantizationArgs.represents_scale hvalid
  refine ⟨a.rndnuParams, rfl, ⟨hscale.multiplier_ge, hscale.multiplier_lt⟩, ⟨hge, hlt⟩,
    hscale.value, fun acc ↦ ?_⟩
  obtain ⟨h₀, h₁⟩ := QuantizationArgs.toInt_shifted_mem hvalid acc
  have hnarrow : ((FixedPoint.ofScale a.scale).shifted acc).toInt.bmod (2 ^ 32) =
      ((FixedPoint.ofScale a.scale).shifted acc).toInt := Int.bmod_eq_of_le (by omega) (by omega)
  have hbyte := requantizeRndnu_eq hrange acc a.scale a.outputZeroPoint
  rw [hnarrow, hscale.toInt_shifted (by omega) hlt] at hbyte
  exact ⟨hscale.toInt_sum hlt acc, (Int64.toInt_toInt32 _).trans hnarrow, _,
    rndnuParams_requantize hvalid acc, hbyte, rfl⟩

/-- The greatest scale below one, and outputs between 10 and 250 around 128. -/
def almostOneArgs : QuantizationArgs := ⟨0, .ofBits 0x3F7FFFFF, 128, 10, 250⟩

/-- The least accumulator comes closest to the least integer. -/
theorem almostOneArgs_exact : ∃ p, Family.rndnu.derive almostOneArgs = .ok (.rndnu p) ∧
    p.shift = 24 ∧ ∃ y, p.requantize Int32.minValue = .ok y ∧ (y.toNat : ℤ) =
      clampedOutput 128 10 250 (roundHalfUp (Int32.minValue.toInt * almostOneArgs.scale.toRat)) :=
  have h : Family.rndnu.derive almostOneArgs = .ok (.rndnu almostOneArgs.rndnuParams) := by
    decide +kernel
  have ⟨_, hparams, _, _, _, hall⟩ := rndnu_stage_exact.2 almostOneArgs _ h
  have heq := Params.rndnu.inj hparams
  have ⟨_, _, y, hy, hbyte, _⟩ := hall Int32.minValue
  ⟨almostOneArgs.rndnuParams, h, by decide +kernel, y, heq ▸ hy, hbyte⟩

end QuantizedGemm
