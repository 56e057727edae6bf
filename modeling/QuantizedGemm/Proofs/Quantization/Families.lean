import QuantizedGemm.Proofs.Kernel.Catalogue
import QuantizedGemm.Proofs.Quantization.FixedPoint

/-!
# What holds of every family

The outputs of a reference lie in the output range (`Strategy.reference_mem`), and arguments with a
scale below one are accepted by every family (`QuantizationArgs.validate_maxScale`).

## Ranges

Both references clamp last, so that the range holds without any hypothesis on the scale, and also
for accumulators that the scale takes out of all bounds. This is what makes the range check of the
oracle redundant next to its comparison.
-/

namespace QuantizedGemm

open Binary

/-! ## The output range -/

section Range

variable {input : Int32} {scale : Binary32} {zeroPoint lower upper : UInt8}

private theorem lowByte_mem {n : ℤ} (hlo : (lower.toNat : ℤ) - zeroPoint.toNat ≤ n)
    (hhi : n ≤ (upper.toNat : ℤ) - zeroPoint.toNat) :
    lower ≤ lowByte (Int32.ofInt (n + zeroPoint.toNat)) ∧
      lowByte (Int32.ofInt (n + zeroPoint.toNat)) ≤ upper := by
  have hupper := upper.toNat_lt
  have hbyte := toNat_lowByte_ofInt (n := n + zeroPoint.toNat) (by omega) (by omega)
  rw [UInt8.le_iff_toNat_le, UInt8.le_iff_toNat_le]
  omega

/-- The clamp of the floating-point reference holds whatever the scale is. -/
theorem requantizeFp32_mem (h : lower ≤ upper) :
    lower ≤ requantizeFp32 input scale zeroPoint lower upper ∧
      requantizeFp32 input scale zeroPoint lower upper ≤ upper := by
  obtain ⟨hlo, hloQ⟩ := toRat_lessZeroPoint lower zeroPoint
  obtain ⟨hhi, hhiQ⟩ := toRat_lessZeroPoint upper zeroPoint
  obtain ⟨-, hge, hle⟩ := clamp_mem (int32ToBinary input * scale) hlo hhi
  rw [UInt8.le_iff_toNat_le] at h
  have hbounds : (lower.toNat : ℤ) - zeroPoint.toNat ≤ upper.toNat - zeroPoint.toNat := by omega
  rw [hloQ, hhiQ, min_eq_left (Int.cast_le.mpr hbounds)] at hge
  rw [hhiQ] at hle
  rw [requantizeFp32_eq]
  exact lowByte_mem (le_roundHalfEven hge) (roundHalfEven_le hle)

theorem requantizeRndnu_mem (h : lower ≤ upper) :
    lower ≤ requantizeRndnu input scale zeroPoint lower upper ∧
      requantizeRndnu input scale zeroPoint lower upper ≤ upper := by
  have hbyte := requantizeRndnu_eq h input scale zeroPoint
  simp only [UInt8.le_iff_toNat_le, clampedOutput] at *
  omega

theorem Strategy.reference_mem (s : Strategy) (h : lower ≤ upper) :
    lower ≤ s.reference input scale zeroPoint lower upper ∧
      s.reference input scale zeroPoint lower upper ≤ upper := by
  cases s with
  | fp32 => exact requantizeFp32_mem h
  | rndnu => exact requantizeRndnu_mem h

end Range

/-! ## Derivation -/

variable {a : QuantizationArgs}

/-- The bound of the fixed-point family is the tighter one. -/
theorem QuantizationArgs.validate_maxFloatScale (h : a.validate maxFixedScale = .ok ()) :
    a.validate maxFloatScale = .ok () := by
  obtain ⟨hfin, hge, hlt, hrange⟩ := (validate_eq_ok_iff_toRat toRat_maxFixedScale).mp h
  exact (validate_eq_ok_iff_toRat toRat_maxFloatScale).mpr
    ⟨hfin, hge, hlt.trans (by norm_num), hrange⟩

theorem QuantizationArgs.validate_maxScale (h : a.validate maxFixedScale = .ok ()) (f : Family) :
    a.validate f.maxScale = .ok () := by
  cases f with
  | rndnu => exact h
  | fmagic | imagic | lrintf | simd => exact validate_maxFloatScale h

end QuantizedGemm
