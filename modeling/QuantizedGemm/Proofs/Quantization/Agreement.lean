import QuantizedGemm.Proofs.Checked
import QuantizedGemm.Proofs.Kernel.VectorStage
import QuantizedGemm.Proofs.Quantization.Magic
import QuantizedGemm.Quantization.Stage

/-!
# The ways of rounding agree

Every floating-point output stage computes the same byte as `requantizeFp32`, although the stages
clamp before or after rounding, as numbers, as bits or as saturated lanes.

## One form for all stages

All are brought to one form: round the product to the nearest integer, clamp that integer, add the
zero point. Clamping commutes with rounding because the bounds are integers. The reference itself
clamps first, so that its sum with the magic bias stays in the window where bits count integers,
even for scales that are not numbers.

## Room

The last step of a stage is a plain addition or subtraction. What it works on is an integer between
`-255` and `255`, plain or on top of the bits of the magic bias, and the result is between these
bounds plus the zero point. So no stage overflows with parameters that are derived from arguments,
whatever the accumulator is.
-/

namespace QuantizedGemm

open Binary Lanes

/-! ## Bytes of integers -/

theorem toNat_lowByte_ofInt {n : ℤ} (h₀ : 0 ≤ n) (h₁ : n ≤ 255) :
    ((lowByte (Int32.ofInt n)).toNat : ℤ) = n := by
  obtain ⟨k, rfl⟩ := Int.eq_ofNat_of_zero_le h₀
  rw [lowByte, Int32.ofInt_eq_ofNat, UInt32.toNat_toUInt8, Int32.toUInt32_ofNat',
    UInt32.toNat_ofNat_of_lt' (Nat.lt_of_le_of_lt (by omega) (by decide : 255 < UInt32.size))]
  omega

@[simp] theorem toInt_min (a b : Int32) : (min a b).toInt = min a.toInt b.toInt := by
  change (if a ≤ b then a else b).toInt = _
  simp only [Int32.le_iff_toInt_le]
  split_ifs <;> omega

@[simp] theorem toInt_max (a b : Int32) : (max a b).toInt = max a.toInt b.toInt := by
  change (if a ≤ b then b else a).toInt = _
  simp only [Int32.le_iff_toInt_le]
  split_ifs <;> omega

private theorem add_sub_sub_left (m r z : Int32) : m + r - (m - z) = r + z := by grind

/-! ## The reference -/

section Reference

variable (input : Int32) (scale : Binary32) (zeroPoint lower upper : UInt8)

/-- The clamped product is a finite number of moderate size, whatever the scale is. -/
theorem clampedProduct_mem :
    (clampedProduct input scale zeroPoint lower upper).isFinite ∧
      (-255 : ℚ) ≤ (clampedProduct input scale zeroPoint lower upper).toRat ∧
      (clampedProduct input scale zeroPoint lower upper).toRat ≤ 255 := by
  obtain ⟨hlo, hloQ⟩ := toRat_lessZeroPoint lower zeroPoint
  obtain ⟨hhi, hhiQ⟩ := toRat_lessZeroPoint upper zeroPoint
  obtain ⟨hfin, hge, hle⟩ := clamp_mem (int32ToBinary input * scale) hlo hhi
  have hl := lower.toNat_lt
  have hu := upper.toNat_lt
  have hz := zeroPoint.toNat_lt
  rw [hloQ, hhiQ] at hge
  rw [hhiQ] at hle
  have h₀ : (-255 : ℚ) ≤ ((lower.toNat - zeroPoint.toNat : ℤ) : ℚ) := by
    exact_mod_cast (show (-255 : ℤ) ≤ lower.toNat - zeroPoint.toNat by omega)
  have h₁ : (-255 : ℚ) ≤ ((upper.toNat - zeroPoint.toNat : ℤ) : ℚ) := by
    exact_mod_cast (show (-255 : ℤ) ≤ upper.toNat - zeroPoint.toNat by omega)
  have h₂ : ((upper.toNat - zeroPoint.toNat : ℤ) : ℚ) ≤ 255 := by
    exact_mod_cast (show ((upper.toNat : ℤ) - zeroPoint.toNat) ≤ 255 by omega)
  exact ⟨hfin, (le_min h₀ h₁).trans hge, hle.trans h₂⟩

theorem roundHalfEven_clampedProduct_mem :
    -255 ≤ roundHalfEven (clampedProduct input scale zeroPoint lower upper).toRat ∧
      roundHalfEven (clampedProduct input scale zeroPoint lower upper).toRat ≤ 255 := by
  obtain ⟨-, hge, hle⟩ := clampedProduct_mem input scale zeroPoint lower upper
  exact ⟨le_roundHalfEven (by exact_mod_cast hge), roundHalfEven_le (by exact_mod_cast hle)⟩

theorem toInt_toInt32Saturating_clampedProduct :
    (clampedProduct input scale zeroPoint lower upper).toInt32Saturating.toInt =
      roundHalfEven (clampedProduct input scale zeroPoint lower upper).toRat := by
  obtain ⟨hfin, -, -⟩ := clampedProduct_mem input scale zeroPoint lower upper
  obtain ⟨h₀, h₁⟩ := roundHalfEven_clampedProduct_mem input scale zeroPoint lower upper
  have hrange : int32Range = (-2147483648, 2147483647) := by decide
  rw [toInt32Saturating, isNaN_of_isFinite hfin, isInfinite_of_isFinite hfin, nearestInt_eq, hrange]
  simp only [Bool.false_eq_true, if_false]
  rw [max_eq_left (by omega), min_eq_left (by omega)]
  exact Int32.toInt_ofInt_of_le (by omega) (by omega)

/-- The bits of the sum with the magic bias count integers. -/
theorem toInt_signedBits_clampedProduct :
    (clampedProduct input scale zeroPoint lower upper + magicBias).signedBits.toInt =
      magicBiasBits.toInt +
        roundHalfEven (clampedProduct input scale zeroPoint lower upper).toRat := by
  obtain ⟨hfin, hge, hle⟩ := clampedProduct_mem input scale zeroPoint lower upper
  rw [add_magicBias_eq_ofRat hfin, toInt_signedBits_ofRat_of_nonneg (by linarith),
    nearest_add_magicBias (by linarith) (by linarith)]

theorem requantizeFp32_eq : requantizeFp32 input scale zeroPoint lower upper =
    lowByte (Int32.ofInt (roundHalfEven
      (clampedProduct input scale zeroPoint lower upper).toRat + zeroPoint.toNat)) := by
  rw [requantizeFp32, Int32.ofInt_add, ← byteToInt32_eq, ← toInt_toInt32Saturating_clampedProduct,
    Int32.ofInt_toInt]

theorem requantizeFp32Magic_eq : requantizeFp32Magic input scale zeroPoint lower upper =
    lowByte (Int32.ofInt (roundHalfEven
      (clampedProduct input scale zeroPoint lower upper).toRat + zeroPoint.toNat)) := by
  have hbits : (clampedProduct input scale zeroPoint lower upper + magicBias).signedBits =
      magicBiasBits + Int32.ofInt (roundHalfEven
        (clampedProduct input scale zeroPoint lower upper).toRat) := by
    rw [← Int32.ofInt_toInt (_ + magicBias).signedBits, toInt_signedBits_clampedProduct,
      Int32.ofInt_add, Int32.ofInt_toInt]
  rw [requantizeFp32Magic, hbits, byteToInt32_eq, add_sub_sub_left, Int32.ofInt_add]

/-- Where the product is finite, the reference rounds it, clamps the integer and adds the zero
point. -/
theorem requantizeFp32_of_isFinite (hfin : (int32ToBinary input * scale).isFinite) :
    requantizeFp32 input scale zeroPoint lower upper =
      lowByte (Int32.ofInt
        (min (max (roundHalfEven (int32ToBinary input * scale).toRat)
          (lower.toNat - zeroPoint.toNat)) (upper.toNat - zeroPoint.toNat) + zeroPoint.toNat)) := by
  obtain ⟨hlo, hloQ⟩ := toRat_lessZeroPoint lower zeroPoint
  obtain ⟨hhi, hhiQ⟩ := toRat_lessZeroPoint upper zeroPoint
  rw [requantizeFp32_eq, clampedProduct, toRat_clamp hfin hlo hhi, hloQ, hhiQ, roundHalfEven_min,
    roundHalfEven_max]

end Reference

/-! ## The stages of the kernels -/

section Stages

variable {a : QuantizationArgs} {maxScale : Binary32}

theorem QuantizationArgs.validate_eq_ok_iff : a.validate maxScale = .ok () ↔
    a.scale.isFinite = true ∧ a.scale.isNegative = false ∧ a.scale.isZero = false ∧
      a.scale.less minScale = false ∧ a.scale.less maxScale = true ∧
      a.outputMin ≤ a.outputMax := by
  unfold QuantizationArgs.validate
  cases a.scale.isFinite <;> cases a.scale.isNegative <;> cases a.scale.isZero <;>
    cases a.scale.less minScale <;> cases a.scale.less maxScale <;>
    by_cases h : a.outputMin ≤ a.outputMax <;> simp [h, UInt8.not_lt]

theorem QuantizationArgs.toRat_minScale :
    minScale.isFinite ∧ minScale.toRat = (2 : ℚ) ^ (-32 : ℤ) := by
  have h : Format.single.Represents |(2 : ℚ) ^ (-32 : ℤ)| := by
    rw [abs_of_nonneg (by positivity)]
    exact represents_single 1 (-32) (by norm_num) (by norm_num) (by norm_num) (by norm_num)
  exact toRat_ofRat (by decide) h

/-- Validation as bounds on the number that the scale stands for. -/
theorem QuantizationArgs.validate_eq_ok_iff_toRat {b : ℚ}
    (hmax : maxScale.isFinite ∧ maxScale.toRat = b) : a.validate maxScale = .ok () ↔
      a.scale.isFinite = true ∧ (2 : ℚ) ^ (-32 : ℤ) ≤ a.scale.toRat ∧ a.scale.toRat < b ∧
        a.outputMin ≤ a.outputMax := by
  obtain ⟨hmaxfin, rfl⟩ := hmax
  obtain ⟨hminfin, hmin⟩ := toRat_minScale
  rw [validate_eq_ok_iff]
  constructor
  · rintro ⟨hfin, -, -, hge, hlt, hrange⟩
    rw [Bool.eq_false_iff, ne_eq, less_iff_toRat hfin hminfin, hmin, not_lt] at hge
    exact ⟨hfin, hge, (less_iff_toRat hfin hmaxfin).1 hlt, hrange⟩
  · rintro ⟨hfin, hge, hlt, hrange⟩
    have hpos : 0 < a.scale.toRat := lt_of_lt_of_le (by positivity) hge
    refine ⟨hfin, isNegative_of_toRat_pos hpos, isZero_of_toRat_pos hpos, ?_,
      (less_iff_toRat hfin hmaxfin).2 hlt, hrange⟩
    rwa [Bool.eq_false_iff, ne_eq, less_iff_toRat hfin hminfin, hmin, not_lt]

theorem QuantizationArgs.toRat_maxFloatScale :
    maxFloatScale.isFinite ∧ maxFloatScale.toRat = 256 := by
  exact_mod_cast toRat_ofInt (n := 256) (by norm_num)

theorem QuantizationArgs.toRat_maxFixedScale :
    maxFixedScale.isFinite ∧ maxFixedScale.toRat = 1 := by
  exact_mod_cast toRat_ofInt (n := 1) (by norm_num)

/-- No accumulator overflows with a scale that the floating-point families take. -/
theorem QuantizationArgs.isFinite_product (h : a.validate maxFloatScale = .ok ()) (acc : Int32) :
    (int32ToBinary acc * a.scale).isFinite := by
  obtain ⟨hfin, hge, hlt, -⟩ := (validate_eq_ok_iff_toRat toRat_maxFloatScale).1 h
  have hpos : 0 < a.scale.toRat := lt_of_lt_of_le (by positivity) hge
  refine isFinite_int32ToBinary_mul acc hfin ?_
  rw [abs_of_pos hpos]
  exact hlt.le

def QuantizationArgs.fp32Reference (a : QuantizationArgs) (acc : Int32) : UInt8 :=
  requantizeFp32 acc a.scale a.outputZeroPoint a.outputMin a.outputMax

theorem toInt_magicBiasBits_sub (zeroPoint : UInt8) :
    (magicBiasBits - byteToInt32 zeroPoint).toInt = magicBiasBits.toInt - zeroPoint.toNat := by
  have hbias : magicBiasBits.toInt = 1262485504 := by decide
  have hz := zeroPoint.toNat_lt
  rw [Int32.toInt_sub, toInt_byteToInt32, hbias]
  exact Int.bmod_eq_of_le (by omega) (by omega)

theorem checkedSub_magicBiasBits {x : Int32} {n : ℤ} (hx : x.toInt = magicBiasBits.toInt + n)
    (hlo : -255 ≤ n) (hhi : n ≤ 255) (zeroPoint : UInt8) :
    checkedSub x (magicBiasBits - byteToInt32 zeroPoint) =
      .ok (Int32.ofInt (n + zeroPoint.toNat)) := by
  have hz := zeroPoint.toNat_lt
  have hdiff : x.toInt - (magicBiasBits - byteToInt32 zeroPoint).toInt = n + zeroPoint.toNat := by
    rw [toInt_magicBiasBits_sub, hx]
    omega
  rw [checkedSub, hdiff, fit32_eq_ok ⟨by omega, by omega⟩]

theorem fmagicParams_requantize (a : QuantizationArgs) (acc : Int32) :
    a.fmagicParams.requantize acc = .ok (a.fp32Reference acc) := by
  obtain ⟨hlo, hhi⟩ := roundHalfEven_clampedProduct_mem acc a.scale a.outputZeroPoint a.outputMin
    a.outputMax
  have hsub := checkedSub_magicBiasBits
    (toInt_signedBits_clampedProduct acc a.scale a.outputZeroPoint a.outputMin a.outputMax) hlo hhi
    a.outputZeroPoint
  rw [QuantizationArgs.fp32Reference, requantizeFp32_eq]
  change (checkedSub _ _ >>= fun x ↦ pure (lowByte x)) = _
  exact hsub ▸ rfl

theorem lrintfParams_requantize (a : QuantizationArgs) (acc : Int32) :
    a.lrintfParams.requantize acc = .ok (a.fp32Reference acc) := by
  obtain ⟨hlo, hhi⟩ := roundHalfEven_clampedProduct_mem acc a.scale a.outputZeroPoint a.outputMin
    a.outputMax
  have hz := a.outputZeroPoint.toNat_lt
  have hadd := checkedAdd_eq_ok (a := (clampedProduct acc a.scale a.outputZeroPoint a.outputMin
    a.outputMax).toInt32Saturating) (b := byteToInt32 a.outputZeroPoint) <| by
      rw [toInt_toInt32Saturating_clampedProduct, toInt_byteToInt32]
      exact ⟨by omega, by omega⟩
  change (checkedAdd _ _ >>= fun x ↦ pure (lowByte x)) = _
  exact hadd ▸ rfl

theorem toInt_signedBits_magicBias_add (bound zeroPoint : UInt8) :
    (magicBias + int32ToBinary (lessZeroPoint bound zeroPoint)).signedBits.toInt =
      magicBiasBits.toInt + (bound.toNat - zeroPoint.toNat) := by
  obtain ⟨hfin, hrat⟩ := toRat_lessZeroPoint bound zeroPoint
  have hb := bound.toNat_lt
  have hz := zeroPoint.toNat_lt
  have hlow : -(2 : ℚ) ^ 21 ≤ ((bound.toNat - zeroPoint.toNat : ℤ) : ℚ) := by
    exact_mod_cast (show -(2 ^ 21 : ℤ) ≤ bound.toNat - zeroPoint.toNat by omega)
  have hhigh : ((bound.toNat - zeroPoint.toNat : ℤ) : ℚ) ≤ (2 : ℚ) ^ 21 := by
    exact_mod_cast (show ((bound.toNat : ℤ) - zeroPoint.toNat) ≤ 2 ^ 21 by omega)
  rw [add_comm_of_isFinite toRat_magicBias.1 hfin, add_magicBias_eq_ofRat hfin, hrat,
    toInt_signedBits_ofRat_of_nonneg (by linarith), nearest_add_magicBias hlow hhigh,
    roundHalfEven_intCast]

/-- Clamping the bits of the rounded sum clamps the rounded product. -/
theorem imagicParams_requantize (h : a.validate QuantizationArgs.maxFloatScale = .ok ())
    (acc : Int32) : a.imagicParams.requantize acc = .ok (a.fp32Reference acc) := by
  have hfin := QuantizationArgs.isFinite_product h acc
  obtain ⟨-, -, -, -, -, hrange⟩ := QuantizationArgs.validate_eq_ok_iff.1 h
  have hrange := UInt8.le_iff_toNat_le.1 hrange
  have hmin := a.outputMin.toNat_lt
  have hmax := a.outputMax.toNat_lt
  have hz := a.outputZeroPoint.toNat_lt
  have hclamp := @toInt_signedBits_add_magicBias _ hfin
    (a.outputMin.toNat - a.outputZeroPoint.toNat) (a.outputMax.toNat - a.outputZeroPoint.toNat)
    (by omega) (by omega) (by omega)
  have hbits : (min (max (int32ToBinary acc * a.scale + magicBias).signedBits
      a.imagicParams.magicMin) a.imagicParams.magicMax).toInt = magicBiasBits.toInt +
        min (max (roundHalfEven (int32ToBinary acc * a.scale).toRat)
          (a.outputMin.toNat - a.outputZeroPoint.toNat))
          (a.outputMax.toNat - a.outputZeroPoint.toNat) := by
    rw [toInt_min, toInt_max, ← hclamp, ← toInt_signedBits_magicBias_add,
      ← toInt_signedBits_magicBias_add]
    rfl
  have hsub := checkedSub_magicBiasBits hbits (by omega) (by omega) a.outputZeroPoint
  rw [QuantizationArgs.fp32Reference, requantizeFp32_of_isFinite _ _ _ _ _ hfin]
  change (checkedSub _ _ >>= fun x ↦ pure (lowByte x)) = _
  exact hsub ▸ rfl

/-! ## The stage of the vector kernels -/

theorem toNat_ofInt {n : ℤ} (h₀ : 0 ≤ n) (h₁ : n ≤ 255) : ((UInt8.ofInt n).toNat : ℤ) = n := by
  rw [UInt8.ofInt, UInt8.toNat_ofNat']
  omega

theorem toInt_ofInt16 {n : ℤ} (h₀ : -32768 ≤ n) (h₁ : n ≤ 32767) : (Int16.ofInt n).toInt = n :=
  Int16.toInt_ofInt_of_le (by omega) (by omega)

/-- A scaled lane is the product, rounded and held at the upper bound, or the least integer. -/
theorem toInt_scaled (h : a.validate QuantizationArgs.maxFloatScale = .ok ()) (acc : Int32) :
    (a.simdParams.scaled acc).toInt =
      max (min (roundHalfEven (int32ToBinary acc * a.scale).toRat)
        (a.outputMax.toNat - a.outputZeroPoint.toNat)) (-2147483648) := by
  obtain ⟨hhi, hhiQ⟩ := toRat_lessZeroPoint a.outputMax a.outputZeroPoint
  obtain ⟨hfin, hrat⟩ := laneMin_of_isFinite (QuantizationArgs.isFinite_product h acc) hhi
  have hmax := a.outputMax.toNat_lt
  have hrange : int32Range = (-2147483648, 2147483647) := by decide
  have hnearest : ((int32ToBinary acc * a.scale).laneMin
      (int32ToBinary (lessZeroPoint a.outputMax a.outputZeroPoint))).nearestInt =
      min (roundHalfEven (int32ToBinary acc * a.scale).toRat)
        (a.outputMax.toNat - a.outputZeroPoint.toNat) := by
    rw [nearestInt_eq, hrat, hhiQ, roundHalfEven_min]
  change (toInt32Indefinite ((int32ToBinary acc * a.scale).laneMin
    (int32ToBinary (lessZeroPoint a.outputMax a.outputZeroPoint)))).toInt = _
  rw [toInt32Indefinite]
  simp only [hfin, hnearest, hrange, Bool.true_and, Bool.and_eq_true, decide_eq_true_eq]
  split_ifs <;> rw [Int32.toInt_ofInt_of_le (by omega) (by omega)] <;> omega

/-- Saturation on the way down to a byte, and the lower bound after it, clamp like the reference. -/
theorem simdParams_requantize (h : a.validate QuantizationArgs.maxFloatScale = .ok ())
    (acc : Int32) : a.simdParams.requantize acc = a.fp32Reference acc := by
  have hfin := QuantizationArgs.isFinite_product h acc
  obtain ⟨-, -, -, -, -, hrange⟩ := QuantizationArgs.validate_eq_ok_iff.1 h
  have hrange := UInt8.le_iff_toNat_le.1 hrange
  have hmin := a.outputMin.toNat_lt
  have hmax := a.outputMax.toNat_lt
  have hz := a.outputZeroPoint.toNat_lt
  have hscaled := toInt_scaled h acc
  generalize hr : roundHalfEven (int32ToBinary acc * a.scale).toRat = r at hscaled
  have hnarrow : (narrow16 (a.simdParams.scaled acc)).toInt =
      max (min r (a.outputMax.toNat - a.outputZeroPoint.toNat)) (-32768) := by
    rw [narrow16, toInt_ofInt16 (by omega) (by omega), hscaled]
    omega
  have hzero : a.simdParams.outputZeroPoint.toInt = a.outputZeroPoint.toNat :=
    Int16.toInt_ofNat_of_lt (hz.trans (by norm_num))
  -- from here on all is about integers, and the lower bound is the last one to hold
  have hbyte : ∀ b : UInt8, (b.toNat : ℤ) =
      min (max (max (min r (a.outputMax.toNat - a.outputZeroPoint.toNat)) (-32768) +
        a.outputZeroPoint.toNat) 0) 255 →
      ((if b < a.outputMin then a.outputMin else b).toNat : ℤ) =
        min (max r (a.outputMin.toNat - a.outputZeroPoint.toNat))
          (a.outputMax.toNat - a.outputZeroPoint.toNat) + a.outputZeroPoint.toNat := by
    intro b hb
    simp only [UInt8.lt_iff_toNat_lt]
    split_ifs <;> omega
  refine UInt8.toNat_inj.1 (Int.ofNat_inj.1 ?_)
  rw [QuantizationArgs.fp32Reference, requantizeFp32_of_isFinite _ _ _ _ _ hfin, hr,
    toNat_lowByte_ofInt (by omega) (by omega)]
  refine hbyte _ ?_
  rw [narrow8, hnarrow, hzero, toInt_ofInt16 (by omega) (by omega),
    toNat_ofInt (by omega) (by omega)]
  omega

end Stages

/-- **All ways of rounding in floating point agree.** The two references agree on every accumulator,
whatever the scale is. For arguments that the floating-point families accept, every stage with
parameters of its own family computes the reference, and so do the vector kernels in every lane of
every row. -/
theorem fp32_roundings_agree :
    (∀ (input : Int32) (scale : Binary32) (zeroPoint lower upper : UInt8),
      requantizeFp32Magic input scale zeroPoint lower upper =
        requantizeFp32 input scale zeroPoint lower upper) ∧
    ∀ a : QuantizationArgs, a.validate QuantizationArgs.maxFloatScale = .ok () →
      (∃ p, Family.fmagic.derive a = .ok (.fmagic p) ∧
        ∀ acc, p.requantize acc = .ok (a.fp32Reference acc)) ∧
      (∃ p, Family.imagic.derive a = .ok (.imagic p) ∧
        ∀ acc, p.requantize acc = .ok (a.fp32Reference acc)) ∧
      (∃ p, Family.lrintf.derive a = .ok (.lrintf p) ∧
        ∀ acc, p.requantize acc = .ok (a.fp32Reference acc)) ∧
      ∃ p, Family.simd.derive a = .ok (.simd p) ∧
        (∀ rows : List (Vector Int32 4),
          FourColumn.packAll p (rows.map (scaleLanes p.scale p.maxLessZeroPoint)) =
            rows.map fun v ↦ (v.map a.fp32Reference).toArray) ∧
        ∀ rows : List (Vector Int32 8),
          EightColumn.packAll p (rows.map (scaleLanes p.scale p.maxLessZeroPoint)) =
            rows.map fun v ↦ (v.map a.fp32Reference).toArray := by
  refine ⟨fun input scale zeroPoint lower upper ↦ ?_, fun a h ↦ ?_⟩
  · rw [requantizeFp32Magic_eq, requantizeFp32_eq]
  have hlanes : a.simdParams.requantize = a.fp32Reference := funext (simdParams_requantize h)
  refine ⟨⟨a.fmagicParams, ?_, fmagicParams_requantize a⟩,
    ⟨a.imagicParams, ?_, imagicParams_requantize h⟩,
    ⟨a.lrintfParams, ?_, lrintfParams_requantize a⟩,
    ⟨a.simdParams, ?_, fun rows ↦ ?_, fun rows ↦ ?_⟩⟩
  case refine_5 => rw [FourColumn.packAll_map_scaleLanes, hlanes]
  case refine_6 => rw [EightColumn.packAll_map_scaleLanes, hlanes]
  all_goals
    simp only [Family.derive, Family.maxScale, h]
    rfl

/-- A scale of one half and outputs between 10 and 250 around 100. -/
def sampleArgs : QuantizationArgs := ⟨0, .ofBits 0x3F000000, 100, 10, 250⟩

theorem sampleArgs_roundings_agree :
    sampleArgs.validate QuantizationArgs.maxFloatScale = .ok () ∧
      ∃ p, Family.imagic.derive sampleArgs = .ok (.imagic p) ∧
        ∀ acc, p.requantize acc = .ok (sampleArgs.fp32Reference acc) :=
  have h : sampleArgs.validate QuantizationArgs.maxFloatScale = .ok () := by decide +kernel
  ⟨h, (fp32_roundings_agree.2 sampleArgs h).2.1⟩

end QuantizedGemm
