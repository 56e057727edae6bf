import QuantizedGemm.Proofs.Quantization.FixedPointStage

/-!
# The references differ by one at most

The fixed-point reference rounds the exact product of an accumulator and a scale. The floating-point
reference rounds three times: the accumulator to a word, the product of words to a word, and this to
an integer. Both roundings to words are monotone and leave representable numbers alone, and this is
all that is used of them.

* A product below `2 ^ 24` lies between two consecutive integers, which are representable, so the
  floating-point reference ends at one of them (`roundHalfEven_ofRat_mem`). If the exact product is
  less than one half away, the fixed-point reference ends at one of them as well.
* The word of an accumulator is at most 128 away from it, since multiples of 128 are representable,
  and there is no difference at all below `2 ^ 24` (`abs_toRat_int32ToBinary_sub_le`). A scale below
  `2 ^ -8` makes that less than one half.
* In all other cases both results lie beyond the same end of the output range.
-/

namespace QuantizedGemm

open Binary

/-! ## Rounding to a word -/

/-- An integer of 25 bits or less, or a multiple of a power of two as long, is left alone. -/
theorem toRat_ofRat_scaled {c : ℤ} (hc : c.natAbs ≤ 2 ^ 24) {k : ℕ} (hk : k ≤ 80) :
    (ofRat (c * (2 : ℚ) ^ k) : Binary32).toRat = c * (2 : ℚ) ^ k := by
  have habs : |(c : ℚ) * (2 : ℚ) ^ k| = (c.natAbs : ℚ) * (2 : ℚ) ^ (k : ℤ) := by
    rw [abs_mul, abs_of_nonneg (by positivity : (0 : ℚ) ≤ (2 : ℚ) ^ k), zpow_natCast,
      Nat.cast_natAbs, Int.cast_abs]
  refine (toRat_ofRat (by decide) ?_).2
  rw [habs]
  rcases hc.lt_or_eq with hlt | heq
  · exact represents_single c.natAbs k rfl hlt (by omega) (by omega)
  · -- the last one has a shorter significand and a greater exponent
    refine represents_single 1 (24 + k) ?_ (by norm_num) (by omega) (by omega)
    rw [heq, zpow_add₀ (by norm_num)]
    norm_num

theorem toRat_ofRat_intCast {n : ℤ} (hn : n.natAbs ≤ 2 ^ 24) :
    (ofRat (n : ℚ) : Binary32).toRat = n := by
  simpa using toRat_ofRat_scaled hn (Nat.zero_le 80)

theorem le_toRat_ofRat {n : ℤ} (hn : n.natAbs ≤ 2 ^ 24) {q : ℚ} (h : n ≤ q) :
    (n : ℚ) ≤ (ofRat q : Binary32).toRat := by
  rw [← toRat_ofRat_intCast hn]
  exact toRat_ofRat_mono (by decide) h

theorem toRat_ofRat_le {n : ℤ} (hn : n.natAbs ≤ 2 ^ 24) {q : ℚ} (h : q ≤ n) :
    (ofRat q : Binary32).toRat ≤ n := by
  rw [← toRat_ofRat_intCast hn]
  exact toRat_ofRat_mono (by decide) h

/-- A number of moderate size is rounded to a word and then to an integer within the two integers
around it. -/
theorem roundHalfEven_ofRat_mem {q : ℚ} (hlow : -(2 : ℚ) ^ 24 < q) (hhigh : q < (2 : ℚ) ^ 24) :
    ⌊q⌋ ≤ roundHalfEven (ofRat q : Binary32).toRat ∧
      roundHalfEven (ofRat q : Binary32).toRat ≤ ⌊q⌋ + 1 := by
  have h₀ : -2 ^ 24 ≤ ⌊q⌋ := Int.le_floor.mpr (by push_cast; exact hlow.le)
  have h₁ : ⌊q⌋ < 2 ^ 24 := Int.floor_lt.mpr (by push_cast; exact hhigh)
  refine ⟨le_roundHalfEven (le_toRat_ofRat (by omega) (Int.floor_le q)),
    roundHalfEven_le (toRat_ofRat_le (by omega) ?_)⟩
  push_cast
  exact (Int.lt_floor_add_one q).le

/-- Two numbers that are less than one half apart are rounded to integers that are one apart at
most, even if one of them is rounded to a word first. -/
theorem abs_round_sub_round_le {p e : ℚ} (hlow : -(2 : ℚ) ^ 24 < p) (hhigh : p < (2 : ℚ) ^ 24)
    (h : |p - e| < 1 / 2) :
    |roundHalfEven (ofRat p : Binary32).toRat - roundHalfUp e| ≤ 1 := by
  obtain ⟨h₀, h₁⟩ := roundHalfEven_ofRat_mem hlow hhigh
  obtain ⟨hleft, hright⟩ := abs_lt.mp h
  have hup₀ : ⌊p⌋ ≤ roundHalfUp e := Int.floor_mono (by linarith)
  have hup₁ : roundHalfUp e ≤ ⌊p⌋ + 1 := by
    rw [← Int.floor_add_one]
    exact Int.floor_mono (by linarith)
  rw [abs_le]
  omega

/-! ## Accumulators as words -/

section Accumulator

variable (input : Int32)

theorem toRat_int32ToBinary_eq :
    (int32ToBinary input).toRat = (ofRat (input.toInt : ℚ) : Binary32).toRat := by
  rw [int32ToBinary, ofInt_eq]

/-- The word of an accumulator lies between the same multiples of 128. -/
theorem abs_toRat_int32ToBinary_sub_le : |(int32ToBinary input).toRat - input.toInt| ≤ 128 := by
  have hlo := input.le_toInt
  have hhi := input.toInt_lt
  have hpow : (2 : ℚ) ^ 7 = 128 := by norm_num
  have hfloor := toRat_ofRat_scaled (c := input.toInt / 128) (k := 7) (by omega) (by norm_num)
  have hceil := toRat_ofRat_scaled (c := input.toInt / 128 + 1) (k := 7) (by omega) (by norm_num)
  have h₀ : ((input.toInt / 128 : ℤ) : ℚ) * (2 : ℚ) ^ 7 ≤ input.toInt := by
    rw [hpow]
    exact_mod_cast (show input.toInt / 128 * 128 ≤ input.toInt by omega)
  have h₁ : (input.toInt : ℚ) ≤ ((input.toInt / 128 + 1 : ℤ) : ℚ) * (2 : ℚ) ^ 7 := by
    rw [hpow]
    exact_mod_cast (show input.toInt ≤ (input.toInt / 128 + 1) * 128 by omega)
  have hge := toRat_ofRat_mono (f := Format.single) (by decide) h₀
  have hle := toRat_ofRat_mono (f := Format.single) (by decide) h₁
  rw [hfloor, ← toRat_int32ToBinary_eq] at hge
  rw [hceil, ← toRat_int32ToBinary_eq] at hle
  push_cast at h₀ h₁ hge hle
  rw [abs_le]
  constructor <;> linarith

end Accumulator

/-! ## Products -/

section Product

variable (input : Int32) {s : ℚ}

/-- The product of the words is less than one half away from the exact product, or both are large
and on the same side of zero. -/
theorem product_cases (h₀ : 0 ≤ s) (h₁ : s < 1) :
    (|(int32ToBinary input).toRat * s| < (2 : ℚ) ^ 24 ∧
        |(int32ToBinary input).toRat * s - input.toInt * s| < 1 / 2) ∨
      ((2 : ℚ) ^ 16 ≤ (int32ToBinary input).toRat * s ∧ (2 : ℚ) ^ 16 ≤ input.toInt * s) ∨
      ((int32ToBinary input).toRat * s ≤ -(2 : ℚ) ^ 16 ∧ input.toInt * s ≤ -(2 : ℚ) ^ 16) := by
  by_cases hsmall : input.toInt.natAbs < 2 ^ 24
  · -- the accumulator is its own word
    left
    have habs : |(input.toInt : ℚ)| < (2 : ℚ) ^ 24 := by
      rw [← Int.cast_abs, Int.abs_eq_natAbs]
      exact_mod_cast hsmall
    rw [(toRat_int32ToBinary hsmall).2, sub_self, abs_zero, abs_mul, abs_of_nonneg h₀]
    refine ⟨?_, by norm_num⟩
    calc |(input.toInt : ℚ)| * s ≤ |(input.toInt : ℚ)| * 1 := by gcongr
      _ < (2 : ℚ) ^ 24 := by rwa [mul_one]
  by_cases hs : s < 1 / 256
  · left
    have hbound := (toRat_int32ToBinary_bounds input).2
    have herror := abs_toRat_int32ToBinary_sub_le input
    rw [← sub_mul, abs_mul, abs_mul, abs_of_nonneg h₀]
    constructor
    · calc |(int32ToBinary input).toRat| * s ≤ (2 : ℚ) ^ 31 * (1 / 256) := by gcongr
        _ < (2 : ℚ) ^ 24 := by norm_num
    · calc |(int32ToBinary input).toRat - input.toInt| * s ≤ 128 * s := by gcongr
        _ < 1 / 2 := by linarith
  · -- the word is on the same side of the representable numbers `2 ^ 24` and `-2 ^ 24`
    right
    rw [not_lt] at hs
    rcases (by omega : (2 : ℤ) ^ 24 ≤ input.toInt ∨ input.toInt ≤ -2 ^ 24) with hpos | hneg
    · left
      have hinput : ((2 ^ 24 : ℤ) : ℚ) ≤ input.toInt := Int.cast_le.mpr hpos
      have hword := le_toRat_ofRat (by decide) hinput
      rw [← toRat_int32ToBinary_eq] at hword
      push_cast at hinput hword
      constructor <;> nlinarith
    · right
      have hinput : (input.toInt : ℚ) ≤ ((-2 ^ 24 : ℤ) : ℚ) := Int.cast_le.mpr hneg
      have hword := toRat_ofRat_le (by decide) hinput
      rw [← toRat_int32ToBinary_eq] at hword
      push_cast at hinput hword
      constructor <;> nlinarith

/-- The rounded products are one apart at most, or both lie beyond the same end of every output
range. -/
theorem rounded_cases (h₀ : 0 ≤ s) (h₁ : s < 1) {m n : ℤ}
    (hm : m = roundHalfEven (ofRat ((int32ToBinary input).toRat * s) : Binary32).toRat)
    (hn : n = roundHalfUp (input.toInt * s)) :
    |m - n| ≤ 1 ∨ (255 ≤ m ∧ 255 ≤ n) ∨ (m ≤ -255 ∧ n ≤ -255) := by
  subst hm hn
  rcases product_cases input h₀ h₁ with ⟨hsize, hclose⟩ | ⟨hword, hexact⟩ | ⟨hword, hexact⟩
  · obtain ⟨hlow, hhigh⟩ := abs_lt.mp hsize
    exact Or.inl (abs_round_sub_round_le hlow hhigh hclose)
  · refine Or.inr (Or.inl ⟨le_roundHalfEven ?_, Int.le_floor.mpr ?_⟩)
    · exact le_toRat_ofRat (by norm_num) (by push_cast; linarith)
    · push_cast
      linarith
  · refine Or.inr (Or.inr ⟨roundHalfEven_le ?_, Int.lt_add_one_iff.mp (Int.floor_lt.mpr ?_)⟩)
    · exact toRat_ofRat_le (by norm_num) (by push_cast; linarith)
    · push_cast
      linarith

end Product

/-! ## Bytes -/

section Bytes

variable {input : Int32} {scale : Binary32} {zeroPoint lower upper : UInt8}

theorem toNat_requantizeFp32 (hfin : (int32ToBinary input * scale).isFinite) :
    ((requantizeFp32 input scale zeroPoint lower upper).toNat : ℤ) =
      clampedOutput zeroPoint lower upper
        (roundHalfEven (int32ToBinary input * scale).toRat) := by
  have hl := lower.toNat_lt
  have hu := upper.toNat_lt
  rw [requantizeFp32_of_isFinite _ _ _ _ _ hfin, clampedOutput, add_comm,
    toNat_lowByte_ofInt] <;> omega

/-- Clamping brings numbers no further apart, and beyond an end of the range it brings them
together. -/
theorem abs_clampedOutput_sub_le (h : lower ≤ upper) {m n : ℤ}
    (hmn : |m - n| ≤ 1 ∨ (255 ≤ m ∧ 255 ≤ n) ∨ (m ≤ -255 ∧ n ≤ -255)) :
    |clampedOutput zeroPoint lower upper m - clampedOutput zeroPoint lower upper n| ≤ 1 := by
  have hl := lower.toNat_lt
  have hu := upper.toNat_lt
  have hz := zeroPoint.toNat_lt
  rw [UInt8.le_iff_toNat_le] at h
  rw [abs_le] at hmn ⊢
  unfold clampedOutput
  omega

/-- **The references differ by one at most**, for every accumulator, every scale of the fixed-point
family and every output range. -/
theorem abs_requantizeFp32_sub_requantizeRndnu_le (hlow : (2 : ℚ) ^ (-32 : ℤ) ≤ scale.toRat)
    (hhigh : scale.toRat < 1) (h : lower ≤ upper) :
    |((requantizeFp32 input scale zeroPoint lower upper).toNat : ℤ) -
      (requantizeRndnu input scale zeroPoint lower upper).toNat| ≤ 1 := by
  have hpos : 0 < scale.toRat := lt_of_lt_of_le (by positivity) hlow
  have hfin : scale.isFinite := by
    refine isFinite_of_abs_toRat_lt ?_
    rw [abs_of_pos hpos, Format.value_infinityBits _ (by decide) (by decide)]
    exact hhigh.trans_le (one_le_pow₀ (by norm_num))
  have hproduct : (int32ToBinary input * scale).isFinite :=
    isFinite_int32ToBinary_mul input hfin (by rw [abs_of_pos hpos]; linarith)
  rw [toNat_requantizeFp32 hproduct, toNat_requantizeRndnu hlow hhigh h,
    toRat_mul (by decide) (toRat_int32ToBinary_bounds input).1 hfin]
  exact abs_clampedOutput_sub_le h (rounded_cases input hpos.le hhigh rfl rfl)

/-- Five halves are a tie, and the two references break it in opposite directions. -/
theorem requantize_five_halves :
    |((requantizeFp32 5 (.ofBits 0x3F000000) 0 0 255).toNat : ℤ) -
      (requantizeRndnu 5 (.ofBits 0x3F000000) 0 0 255).toNat| ≤ 1 ∧
    requantizeFp32 5 (.ofBits 0x3F000000) 0 0 255 = 2 ∧
    requantizeRndnu 5 (.ofBits 0x3F000000) 0 0 255 = 3 :=
  ⟨abs_requantizeFp32_sub_requantizeRndnu_le (by decide +kernel) (by decide +kernel) (by decide),
    by decide +kernel, by decide +kernel⟩

end Bytes

end QuantizedGemm
