import QuantizedGemm.Proofs.Quantization.Agreement

/-!
# Requantization in fixed point

A scale of at least `2 ^ -32` is a normal number, so that its word holds a multiplier of 24 bits and
a shift whose product is the scale without any error (`FixedPoint.represents_ofScale`).

## In 64 bits

An accumulator times such a multiplier, with half of the last surviving place added, fits 64 bits,
and the shift of the sum is a floor. Before it is narrowed to 32 bits the output is therefore the
exact product, rounded with halves up (`FixedPoint.Represents.toInt_shifted`). Every step on the way
is checked, and no check fails (`FixedPoint.Represents.checked`).

## In 32 bits

Only the narrowing can lose something. It is exact for every accumulator if the scale is below one,
as the scales of the fixed-point kernels are (`roundHalfUp_mem_of_lt_one`). The reference takes
scales below 256. There the output is known modulo `2 ^ 32`, and a product that does not fit 32 bits
wraps around before it is clamped.
-/

namespace QuantizedGemm

open Binary

/-! ## Rounding with halves up -/

/-- The integer nearest to `q`; halfway between two, the greater one. -/
def roundHalfUp (q : ℚ) : ℤ := ⌊q + 1 / 2⌋

/-- Adding half of the last place before it is shifted out rounds with halves up. -/
theorem roundHalfUp_scaled (n : ℤ) (k : ℕ) :
    roundHalfUp (n * (2 : ℚ) ^ (-((k + 1 : ℕ) : ℤ))) = (n + 2 ^ k) / (2 : ℤ) ^ (k + 1) := by
  have hpow : (2 : ℚ) ^ (-((k + 1 : ℕ) : ℤ)) = 1 / ((2 ^ (k + 1) : ℕ) : ℚ) := by
    rw [zpow_neg, zpow_natCast, one_div]
    push_cast
    rfl
  have hsum : n * (2 : ℚ) ^ (-((k + 1 : ℕ) : ℤ)) + 1 / 2 =
      ((n + 2 ^ k : ℤ) : ℚ) / ((2 ^ (k + 1) : ℕ) : ℚ) := by
    rw [hpow]
    push_cast
    rw [pow_succ]
    field_simp
  rw [roundHalfUp, hsum, Rat.floor_intCast_div_natCast]
  push_cast
  rfl

theorem roundHalfUp_mem_of_lt_one {lo hi n : ℤ} {q : ℚ} (hlo : lo ≤ 0) (hhi : 0 ≤ hi) (h₀ : lo ≤ n)
    (h₁ : n ≤ hi) (hq₀ : 0 ≤ q) (hq₁ : q < 1) :
    lo ≤ roundHalfUp (n * q) ∧ roundHalfUp (n * q) ≤ hi := by
  have hloQ : (lo : ℚ) ≤ n * q := by
    have h : (lo : ℚ) ≤ n := by exact_mod_cast h₀
    have hneg : (lo : ℚ) ≤ 0 := by exact_mod_cast hlo
    nlinarith
  have hhiQ : (n : ℚ) * q ≤ hi := by
    have h : (n : ℚ) ≤ hi := by exact_mod_cast h₁
    have hpos : (0 : ℚ) ≤ hi := by exact_mod_cast hhi
    nlinarith
  refine ⟨Int.le_floor.mpr (by linarith), Int.lt_add_one_iff.mp (Int.floor_lt.mpr ?_)⟩
  push_cast
  linarith

/-! ## The parts of a scale -/

namespace FixedPoint

/-- A multiplier of 24 bits and a shift that stand for `q` without any error. -/
structure Represents (s : FixedPoint) (q : ℚ) : Prop where
  multiplier_ge : (2 : ℤ) ^ 23 ≤ s.multiplier.toInt
  multiplier_lt : s.multiplier.toInt < (2 : ℤ) ^ 24
  value : (s.multiplier.toInt : ℚ) * (2 : ℚ) ^ (-(s.shift : ℤ)) = q

theorem ofScale_eq {scale : Binary32} (hneg : scale.isNegative = false) {e r : ℕ}
    (hr : r < 2 ^ 23) (hm : scale.magnitude = (e + 1) * 2 ^ 23 + r) :
    ofScale scale = ⟨Int32.ofNat (2 ^ 23 + r), 149 - e⟩ := by
  have hsign : signBit Format.single = 2 ^ 31 := rfl
  have hbits : scale.bits.toNat = (e + 1) * 2 ^ 23 + r := by
    rw [← hm, magnitude, hsign, Nat.mod_eq_of_lt]
    simpa [isNegative, hsign] using hneg
  have hfraction : scale.bits.toNat % (1 <<< 23) + (1 <<< 23) = 2 ^ 23 + r := by
    rw [hbits, Nat.one_shiftLeft]
    omega
  have hexponent : 127 + 23 - scale.bits.toNat >>> 23 = 149 - e := by
    rw [hbits, Nat.shiftRight_eq_div_pow]
    omega
  rw [ofScale, hfraction, hexponent]

/-- A scale from `2 ^ -32` to below `2 ^ k` is taken apart without any error, and the shift tells
its size. -/
theorem represents_ofScale {scale : Binary32} {k : ℕ} (hk : k ≤ 8)
    (hlow : (2 : ℚ) ^ (-32 : ℤ) ≤ scale.toRat) (hhigh : scale.toRat < (2 : ℚ) ^ (k : ℤ)) :
    (ofScale scale).Represents scale.toRat ∧ 24 ≤ (ofScale scale).shift + k ∧
      (ofScale scale).shift < 56 := by
  have htwo : (1 : ℚ) < 2 := by norm_num
  have hneg := isNegative_of_toRat_pos (lt_of_lt_of_le (by positivity) hlow)
  have hvalue := toRat_of_isNegative hneg
  rcases Format.single.magnitude_cases scale.magnitude with hsub | ⟨e, r, hr, hm⟩
  · -- subnormal numbers are far below the least scale
    have hlt : Format.single.value scale.magnitude < (2 : ℚ) ^ (-32 : ℤ) := by
      rw [Format.single.value_of_lt hsub]
      calc (scale.magnitude : ℚ) * (2 : ℚ) ^ Format.single.leastExponent
          < (2 : ℚ) ^ (23 : ℤ) * (2 : ℚ) ^ (-149 : ℤ) := by
            refine mul_lt_mul_of_pos_right ?_ (by positivity)
            exact_mod_cast hsub
        _ ≤ (2 : ℚ) ^ (-32 : ℤ) := by norm_num
    rw [hvalue] at hlow
    linarith
  · have hr : r < 2 ^ 23 := hr
    have hexact : scale.toRat = ((2 ^ 23 + r : ℕ) : ℚ) * (2 : ℚ) ^ (-149 + e : ℤ) := by
      rw [hvalue, hm, Format.single.value_of_normal e hr]
      rfl
    -- the value lies between two powers of two, and so does the exponent
    have hge : (2 : ℚ) ^ (-126 + e : ℤ) ≤ scale.toRat := by
      rw [hexact, show (-126 + e : ℤ) = 23 + (-149 + e) by ring, zpow_add₀ (by norm_num) 23]
      gcongr
      push_cast
      norm_num
    have hlt : scale.toRat < (2 : ℚ) ^ (-125 + e : ℤ) := by
      have hsignificand : ((2 ^ 23 + r : ℕ) : ℚ) < (2 : ℚ) ^ (24 : ℤ) := by
        exact_mod_cast (show 2 ^ 23 + r < 2 ^ 24 by omega)
      rw [hexact, show (-125 + e : ℤ) = 24 + (-149 + e) by ring, zpow_add₀ (by norm_num) 24]
      exact mul_lt_mul_of_pos_right hsignificand (by positivity)
    have h₀ := (zpow_lt_zpow_iff_right₀ htwo).mp (hge.trans_lt hhigh)
    have h₁ := (zpow_lt_zpow_iff_right₀ htwo).mp (hlow.trans_lt hlt)
    have hmultiplier : (Int32.ofNat (2 ^ 23 + r)).toInt = 2 ^ 23 + r := by
      rw [Int32.toInt_ofNat_of_lt (by omega)]
      push_cast
      rfl
    rw [ofScale_eq hneg hr hm]
    refine ⟨⟨?_, ?_, ?_⟩, by dsimp only; omega, by dsimp only; omega⟩
    · dsimp only
      omega
    · dsimp only
      omega
    · dsimp only
      rw [hmultiplier, hexact, show (-((149 - e : ℕ) : ℤ)) = -149 + e by omega]
      push_cast
      rfl

/-! ## The product in 64 bits -/

/-- The output before it is narrowed to 32 bits. -/
def shifted (s : FixedPoint) (input : Int32) : Int64 :=
  (input.toInt64 * s.multiplier.toInt64 + s.rounding) >>> Int64.ofNat s.shift

theorem scaleUpHalf_eq (s : FixedPoint) (input : Int32) :
    scaleUpHalf s.multiplier s.rounding s.shift input = (s.shifted input).toInt32 := rfl

theorem toInt_shiftRight (x : Int64) {k : ℕ} (hk : k < 64) :
    (x >>> Int64.ofNat k).toInt = x.toInt / 2 ^ k := by
  have hamount : ((Int64.ofNat k).toBitVec.smod 64).toNat = k := by
    have hnonneg : (BitVec.ofNat 64 k).msb = false := by
      rw [BitVec.msb_eq_false_iff_two_mul_lt, BitVec.toNat_ofNat]
      omega
    have hwidth : (64 : BitVec 64).msb = false := rfl
    rw [Int64.toBitVec_ofNat', BitVec.smod_eq, hnonneg, hwidth]
    change (BitVec.ofNat 64 k).toNat % 64 = k
    rw [BitVec.toNat_ofNat]
    omega
  rw [← Int64.toInt_toBitVec, Int64.toBitVec_shiftRight, BitVec.sshiftRight_eq', hamount,
    BitVec.toInt_sshiftRight, Int64.toInt_toBitVec, Int.shiftRight_eq_div_pow]
  push_cast
  rfl

section Wide

variable {s : FixedPoint} {q : ℚ}

theorem toInt_rounding (hshift : s.shift < 56) : s.rounding.toInt = 2 ^ (s.shift - 1) := by
  have hpow : 2 ^ (s.shift - 1) < 2 ^ 63 := Nat.pow_lt_pow_right (by norm_num) (by omega)
  rw [rounding, Nat.one_shiftLeft, Int64.toInt_ofNat_of_lt hpow]
  push_cast
  rfl

theorem Represents.product_mem (h : s.Represents q) (input : Int32) :
    -(2 ^ 55 : ℤ) ≤ input.toInt * s.multiplier.toInt ∧
      input.toInt * s.multiplier.toInt ≤ 2 ^ 55 := by
  have hlo := input.le_toInt
  have hhi := input.toInt_lt
  have hge := h.multiplier_ge
  have hlt := h.multiplier_lt
  constructor <;> nlinarith

theorem toInt_rounding_mem (hshift : s.shift < 56) :
    0 < s.rounding.toInt ∧ s.rounding.toInt ≤ 2 ^ 54 := by
  rw [toInt_rounding hshift]
  exact ⟨by positivity, pow_le_pow_right₀ (by norm_num) (by omega)⟩

theorem Represents.toInt_product (h : s.Represents q) (input : Int32) :
    (input.toInt64 * s.multiplier.toInt64).toInt = input.toInt * s.multiplier.toInt := by
  obtain ⟨h₀, h₁⟩ := h.product_mem input
  rw [Int64.toInt_mul, Int32.toInt_toInt64, Int32.toInt_toInt64]
  exact Int.bmod_eq_of_le (by omega) (by omega)

theorem Represents.toInt_sum (h : s.Represents q) (hshift : s.shift < 56) (input : Int32) :
    (input.toInt64 * s.multiplier.toInt64 + s.rounding).toInt =
      input.toInt * s.multiplier.toInt + 2 ^ (s.shift - 1) := by
  obtain ⟨h₀, h₁⟩ := h.product_mem input
  obtain ⟨hhalf₀, hhalf₁⟩ := toInt_rounding_mem hshift
  rw [Int64.toInt_add, h.toInt_product, ← toInt_rounding hshift]
  exact Int.bmod_eq_of_le (by omega) (by omega)

/-- So nothing overflows on the way to the output in 64 bits. -/
theorem Represents.checked (h : s.Represents q) (hshift : s.shift < 56) (input : Int32) :
    (do
      let product ← checkedMul64 input.toInt64 s.multiplier.toInt64
      let sum ← checkedAdd64 product s.rounding
      checkedShiftRight64 sum s.shift) = .ok (s.shifted input) := by
  obtain ⟨h₀, h₁⟩ := h.product_mem input
  obtain ⟨hhalf₀, hhalf₁⟩ := toInt_rounding_mem hshift
  have hmul : checkedMul64 input.toInt64 s.multiplier.toInt64 =
      .ok (input.toInt64 * s.multiplier.toInt64) := by
    apply checkedMul64_eq_ok <;> rw [Int32.toInt_toInt64, Int32.toInt_toInt64] <;> omega
  have hadd : checkedAdd64 (input.toInt64 * s.multiplier.toInt64) s.rounding =
      .ok (input.toInt64 * s.multiplier.toInt64 + s.rounding) := by
    apply checkedAdd64_eq_ok <;> rw [h.toInt_product] <;> omega
  rw [hmul]
  change (checkedAdd64 _ _ >>= fun sum ↦ checkedShiftRight64 sum s.shift) = _
  rw [hadd]
  exact checkedShiftRight64_eq_ok (by omega)

/-- In 64 bits the output is the exact product, rounded with halves up. -/
theorem Represents.toInt_shifted (h : s.Represents q) (hpos : 0 < s.shift) (hshift : s.shift < 56)
    (input : Int32) : (s.shifted input).toInt = roundHalfUp (input.toInt * q) := by
  obtain ⟨k, hk⟩ := Nat.exists_eq_succ_of_ne_zero hpos.ne'
  rw [shifted, toInt_shiftRight _ (by omega), h.toInt_sum hshift, ← h.value, ← mul_assoc,
    ← Int.cast_mul, hk, roundHalfUp_scaled, Nat.succ_sub_one]

end Wide

end FixedPoint

/-! ## The output range -/

/-- The output for an integer: held in the output range, relative to the zero point. -/
def clampedOutput (zeroPoint lower upper : UInt8) (n : ℤ) : ℤ :=
  zeroPoint.toNat + min (max n (lower.toNat - zeroPoint.toNat)) (upper.toNat - zeroPoint.toNat)

theorem toNat_lowByte_clamp {zeroPoint lower upper : UInt8} (h : lower ≤ upper) (out : Int32) :
    ((lowByte (min (max out (lessZeroPoint lower zeroPoint)) (lessZeroPoint upper zeroPoint) +
        byteToInt32 zeroPoint)).toNat : ℤ) = clampedOutput zeroPoint lower upper out.toInt := by
  have hl := lower.toNat_lt
  have hu := upper.toNat_lt
  have hrange := UInt8.le_iff_toNat_le.mp h
  have hbyte : min (max out (lessZeroPoint lower zeroPoint)) (lessZeroPoint upper zeroPoint) +
      byteToInt32 zeroPoint = Int32.ofInt (clampedOutput zeroPoint lower upper out.toInt) := by
    rw [clampedOutput, add_comm _ (min _ _), Int32.ofInt_add, ← byteToInt32_eq,
      ← toInt_lessZeroPoint, ← toInt_lessZeroPoint, ← toInt_max, ← toInt_min, Int32.ofInt_toInt]
  rw [hbyte, toNat_lowByte_ofInt] <;> (rw [clampedOutput]; omega)

theorem checkedAdd_clamp (zeroPoint lower upper : UInt8) (out : Int32) :
    checkedAdd (min (max out (lessZeroPoint lower zeroPoint)) (lessZeroPoint upper zeroPoint))
        (byteToInt32 zeroPoint) =
      .ok (min (max out (lessZeroPoint lower zeroPoint)) (lessZeroPoint upper zeroPoint) +
        byteToInt32 zeroPoint) := by
  have hl := lower.toNat_lt
  have hu := upper.toNat_lt
  have hz := zeroPoint.toNat_lt
  refine checkedAdd_eq_ok ?_
  rw [toInt_min, toInt_max, toInt_lessZeroPoint, toInt_lessZeroPoint, toInt_byteToInt32]
  exact ⟨by omega, by omega⟩

/-! ## The reference -/

section Reference

variable {scale : Binary32} {zeroPoint lower upper : UInt8}

theorem requantizeRndnu_eq (h : lower ≤ upper) (input : Int32) (scale : Binary32)
    (zeroPoint : UInt8) : ((requantizeRndnu input scale zeroPoint lower upper).toNat : ℤ) =
      clampedOutput zeroPoint lower upper
        (((FixedPoint.ofScale scale).shifted input).toInt.bmod (2 ^ 32)) := by
  rw [← Int64.toInt_toInt32, ← FixedPoint.scaleUpHalf_eq]
  exact toNat_lowByte_clamp h _

/-- With a scale below one, the fixed-point reference is the output for the rounded product. -/
theorem toNat_requantizeRndnu {input : Int32} (hlow : (2 : ℚ) ^ (-32 : ℤ) ≤ scale.toRat)
    (hhigh : scale.toRat < 1) (h : lower ≤ upper) :
    ((requantizeRndnu input scale zeroPoint lower upper).toNat : ℤ) =
      clampedOutput zeroPoint lower upper (roundHalfUp (input.toInt * scale.toRat)) := by
  obtain ⟨hscale, hge, hlt⟩ := FixedPoint.represents_ofScale (k := 0) (by norm_num) hlow
    (by simpa using hhigh)
  obtain ⟨h₀, h₁⟩ := roundHalfUp_mem_of_lt_one (by norm_num) (by norm_num) input.le_toInt
    (Int.le_sub_one_of_lt input.toInt_lt) (le_trans (by positivity) hlow) hhigh
  rw [requantizeRndnu_eq h, hscale.toInt_shifted (by omega) hlt,
    Int.bmod_eq_of_le (by omega) (by omega)]

/-- **The fixed-point reference is exact up to its narrowing.** For every scale that it takes, the
output in 64 bits is the product, rounded with halves up, and the byte is clamped from the low 32
bits of that. It is the byte for the product itself where the rounded product fits 32 bits. -/
theorem requantizeRndnu_narrows (hlow : (2 : ℚ) ^ (-32 : ℤ) ≤ scale.toRat)
    (hhigh : scale.toRat < 256) (h : lower ≤ upper) (input : Int32) :
    ((FixedPoint.ofScale scale).shifted input).toInt =
        roundHalfUp (input.toInt * scale.toRat) ∧
      ((requantizeRndnu input scale zeroPoint lower upper).toNat : ℤ) =
        clampedOutput zeroPoint lower upper
          ((roundHalfUp (input.toInt * scale.toRat)).bmod (2 ^ 32)) ∧
      (-2 ^ 31 ≤ roundHalfUp (input.toInt * scale.toRat) →
        roundHalfUp (input.toInt * scale.toRat) < 2 ^ 31 →
        ((requantizeRndnu input scale zeroPoint lower upper).toNat : ℤ) =
          clampedOutput zeroPoint lower upper (roundHalfUp (input.toInt * scale.toRat))) := by
  obtain ⟨hscale, hge, hlt⟩ := FixedPoint.represents_ofScale (k := 8) le_rfl hlow
    (by norm_num; exact hhigh)
  have hshifted := hscale.toInt_shifted (by omega) hlt input
  refine ⟨hshifted, ?_, fun h₀ h₁ ↦ ?_⟩
  · rw [requantizeRndnu_eq h, hshifted]
  · rw [requantizeRndnu_eq h, hshifted, Int.bmod_eq_of_le (by omega) (by omega)]

/-- A scale of four, within the range that the reference takes. -/
def scaleFour : Binary32 := .ofBits 0x40800000

/-- The product of `2 ^ 29 - 1` is the greatest one that still fits. -/
theorem requantizeRndnu_saturates :
    ((requantizeRndnu 536870911 scaleFour 3 10 250).toNat : ℤ) =
      clampedOutput 3 10 250 (roundHalfUp ((536870911 : Int32).toInt * scaleFour.toRat)) :=
  (requantizeRndnu_narrows (by decide +kernel) (by decide +kernel) (by decide) 536870911).2.2
    (by decide +kernel) (by decide +kernel)

/-- The product of `2 ^ 30` is `2 ^ 32`. It wraps around to zero, which is clamped to the zero point
instead of the greatest output. -/
theorem requantizeRndnu_wraps : (2 : ℚ) ^ (-32 : ℤ) ≤ scaleFour.toRat ∧ scaleFour.toRat < 256 ∧
    requantizeRndnu 1073741824 scaleFour 0 0 255 = 0 ∧
    clampedOutput 0 0 255 (roundHalfUp ((1073741824 : Int32).toInt * scaleFour.toRat)) = 255 := by
  decide +kernel

end Reference

end QuantizedGemm
