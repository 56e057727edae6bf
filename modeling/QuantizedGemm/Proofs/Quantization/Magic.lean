import QuantizedGemm.Proofs.Binary.Word
import QuantizedGemm.Proofs.WrappingSum
import QuantizedGemm.Quantization.Params

/-!
# Integers and the magic bias

Between `2 ^ 23` and `2 ^ 24` consecutive words of 32 bits are consecutive integers, so a sum with
the magic bias rounds to an integer, and its bits count up with that integer
(`toInt_signedBits_add_magicBias`).

## Outside the window

Sums that leave the window need no analysis of their own. Bits are monotone in the number they stand
for, sums below zero have negative bits, and the clamp bounds that follow are integers of moderate
size. So monotonicity alone keeps the bits on the right side of every bound, and the statement is
about bits that are held between two bounds, and not about bits.
-/

namespace QuantizedGemm

open Binary

/-! ## Representable numbers of 32 bits -/

theorem represents_single {q : ℚ} (n : ℕ) (e : ℤ) (hq : (n : ℚ) * (2 : ℚ) ^ e = q)
    (hn : n < 2 ^ 24) (hlow : -149 ≤ e) (hhigh : e ≤ 104) : Format.single.Represents q := by
  rw [← hq]
  exact Format.represents_of_exponent_le (by decide) (by decide) hn hlow
    (show e + 24 ≤ 128 by omega)

theorem represents_two_pow {e : ℕ} (he : e ≤ 104) : Format.single.Represents ((2 : ℚ) ^ e) :=
  represents_single 1 e (by norm_num) (by norm_num) (by omega) (by omega)

theorem toRat_ofInt {n : ℤ} (h : n.natAbs < 2 ^ 24) :
    (ofInt n : Binary32).isFinite ∧ (ofInt n : Binary32).toRat = n := by
  rw [ofInt_eq]
  refine toRat_ofRat (by decide) (represents_single n.natAbs 0 ?_ h (by norm_num) (by norm_num))
  rw [zpow_zero, mul_one, Nat.cast_natAbs, Int.cast_abs]

/-! ## Bytes and 32-bit integers -/

theorem toInt_lessZeroPoint (bound zeroPoint : UInt8) :
    (lessZeroPoint bound zeroPoint).toInt = bound.toNat - zeroPoint.toNat := by
  have hb := bound.toNat_lt
  have hz := zeroPoint.toNat_lt
  rw [lessZeroPoint, Int32.toInt_sub, toInt_byteToInt32, toInt_byteToInt32]
  exact Int.bmod_eq_of_le (by omega) (by omega)

theorem toRat_int32ToBinary {n : Int32} (h : n.toInt.natAbs < 2 ^ 24) :
    (int32ToBinary n).isFinite ∧ (int32ToBinary n).toRat = n.toInt := toRat_ofInt h

/-- Bounds relative to the zero point are exact in floating point. -/
theorem toRat_lessZeroPoint (bound zeroPoint : UInt8) :
    (int32ToBinary (lessZeroPoint bound zeroPoint)).isFinite ∧
      (int32ToBinary (lessZeroPoint bound zeroPoint)).toRat =
        ((bound.toNat - zeroPoint.toNat : ℤ) : ℚ) := by
  have hb := bound.toNat_lt
  have hz := zeroPoint.toNat_lt
  rw [← toInt_lessZeroPoint]
  exact toRat_int32ToBinary (by rw [toInt_lessZeroPoint]; omega)

/-- Every accumulator has a word, and this one is not further from zero than the least of them. -/
theorem toRat_int32ToBinary_bounds (acc : Int32) :
    (int32ToBinary acc).isFinite ∧ |(int32ToBinary acc).toRat| ≤ (2 : ℚ) ^ 31 := by
  have hacc : |((acc.toInt : ℤ) : ℚ)| ≤ (2 : ℚ) ^ 31 := by
    rw [← Int.cast_abs]
    have := acc.le_toInt
    have := acc.toInt_lt
    exact_mod_cast (show |acc.toInt| ≤ 2 ^ 31 by rw [abs_le]; omega)
  have hbounds := toRat_ofRat_bounds (by decide) (represents_two_pow (by norm_num)) hacc
  rwa [← ofInt_eq] at hbounds

theorem isFinite_int32ToBinary_mul (acc : Int32) {scale : Binary32} (hs : scale.isFinite)
    (hsize : |scale.toRat| ≤ 256) : (int32ToBinary acc * scale).isFinite := by
  obtain ⟨hfin, hbound⟩ := toRat_int32ToBinary_bounds acc
  rw [mul_of_isFinite hfin hs, ← abs_toRat, ← abs_toRat]
  refine isFinite_ofMagnitude (by decide) _
    ((@represents_two_pow 39 (by norm_num)).value_nearest_le (by positivity) ?_).1
  calc |(int32ToBinary acc).toRat| * |scale.toRat| ≤ (2 : ℚ) ^ 31 * 256 := by gcongr
    _ = (2 : ℚ) ^ 39 := by norm_num

/-! ## The bits of a sum with the magic bias -/

theorem toInt_signedBits_ofRat_of_nonneg {q : ℚ} (h : 0 ≤ q) :
    (ofRat q : Binary32).signedBits.toInt = Format.single.nearest q := by
  have hlt := (Format.single.nearest_le_infinityBits q).trans_lt
    (infinityBits_lt_signBit (by decide))
  rw [toInt_signedBits, ofRat, if_neg (not_lt.2 h), isNegative_ofMagnitude (by decide) _ hlt,
    magnitude_ofMagnitude (by decide) _ hlt]
  simp

theorem toInt_signedBits_ofRat_neg {q : ℚ} (h : q < 0) :
    (ofRat q : Binary32).signedBits.toInt < 0 := by
  have hle := Format.single.nearest_le_infinityBits (-q)
  have hlt := hle.trans_lt (infinityBits_lt_signBit (by decide))
  have hbits : Format.single.infinityBits < 2 ^ 31 := by decide
  rw [toInt_signedBits, ofRat, if_pos h, isNegative_ofMagnitude (by decide) _ hlt,
    magnitude_ofMagnitude (by decide) _ hlt, if_pos rfl]
  omega

/-- In the window around the magic bias, magnitudes count integers. -/
theorem nearest_add_magicBias {q : ℚ} (hlow : -(2 : ℚ) ^ 21 ≤ q) (hhigh : q ≤ (2 : ℚ) ^ 21) :
    (Format.single.nearest (q + 12582912) : ℤ) = magicBiasBits.toInt + roundHalfEven q := by
  have hbias : magicBiasBits.toInt = 1262485504 := by decide
  -- the window lies between two powers of two, where the last place of a word counts ones
  have hlog : floorLog2 (q + 12582912) = 23 := by
    apply floorLog2_eq <;> norm_num <;> linarith
  have hexp : Format.single.resultExponent (q + 12582912) = 0 := by
    rw [Format.resultExponent, hlog]
    decide
  have hround : roundHalfEven (q + 12582912) = roundHalfEven q + 12582912 := by
    have := roundHalfEven_add_even q 6291456
    norm_num at this
    exact this
  have hr1 : -(2 ^ 21 : ℤ) ≤ roundHalfEven q := le_roundHalfEven (by push_cast; exact hlow)
  have hr2 : roundHalfEven q ≤ (2 ^ 21 : ℤ) := roundHalfEven_le (by push_cast; exact hhigh)
  have hbits : Format.single.infinityBits = 2139095040 := by decide
  have hplace : ((0 - Format.single.leastExponent).toNat <<< Format.single.fractionBits) =
      1249902592 := by decide
  have hne : q + 12582912 ≠ 0 := by linarith
  rw [Format.nearest, if_neg hne]
  simp only [hexp, zpow_zero, div_one, hround, hplace, hbits, hbias]
  omega

theorem toRat_magicBias : magicBias.isFinite ∧ magicBias.toRat = 12582912 := by
  have := toRat_ofInt (n := 12582912) (by norm_num)
  exact_mod_cast this

theorem add_comm_of_isFinite {f : Format} {x y : Binary f} (hx : x.isFinite) (hy : y.isFinite) :
    x + y = y + x := by
  rw [add_of_isFinite hx hy, add_of_isFinite hy hx, add_comm, Bool.and_comm]

theorem add_magicBias_eq_ofRat {x : Binary32} (hx : x.isFinite) :
    x + magicBias = ofRat (x.toRat + 12582912) := by
  have hneg : magicBias.isNegative = false := by decide
  rw [add_of_isFinite hx toRat_magicBias.1, toRat_magicBias.2, hneg, Bool.and_false]
  split_ifs with h
  · rw [h, ofRat, if_neg (lt_irrefl 0), Format.nearest, if_pos rfl]
  · rfl

/-- The bits of a sum with the magic bias, held between two integers of moderate size, are those of
the magic bias plus the rounded number, held between these integers. -/
theorem toInt_signedBits_add_magicBias {x : Binary32} (hx : x.isFinite) {lo hi : ℤ}
    (hlo : -2 ^ 21 ≤ lo) (hlohi : lo ≤ hi) (hhi : hi ≤ 2 ^ 21) :
    min (max (x + magicBias).signedBits.toInt (magicBiasBits.toInt + lo))
        (magicBiasBits.toInt + hi) =
      magicBiasBits.toInt + min (max (roundHalfEven x.toRat) lo) hi := by
  have hbias : magicBiasBits.toInt = 1262485504 := by decide
  have hloQ : -(2 : ℚ) ^ 21 ≤ lo := by exact_mod_cast hlo
  have hhiQ : (hi : ℚ) ≤ (2 : ℚ) ^ 21 := by exact_mod_cast hhi
  have hlohiQ : (lo : ℚ) ≤ hi := by exact_mod_cast hlohi
  have hatlo := nearest_add_magicBias hloQ (hlohiQ.trans hhiQ)
  have hathi := nearest_add_magicBias (hloQ.trans hlohiQ) hhiQ
  rw [roundHalfEven_intCast] at hatlo hathi
  rw [add_magicBias_eq_ofRat hx]
  rcases lt_or_ge x.toRat lo with hlt | hge
  · -- below the window the sum may even be negative, and so are its bits then
    have hround := roundHalfEven_le hlt.le
    have hbits : (ofRat (x.toRat + 12582912) : Binary32).signedBits.toInt ≤
        magicBiasBits.toInt + lo := by
      rcases lt_or_ge (x.toRat + 12582912) 0 with hneg | hnonneg
      · have := toInt_signedBits_ofRat_neg hneg
        omega
      · have := Format.single.nearest_mono hnonneg (add_le_add_left hlt.le 12582912)
        rw [toInt_signedBits_ofRat_of_nonneg hnonneg]
        omega
    omega
  · rw [toInt_signedBits_ofRat_of_nonneg (by linarith)]
    rcases le_or_gt x.toRat hi with hle | hgt
    · rw [nearest_add_magicBias (hloQ.trans hge) (hle.trans hhiQ)]
      omega
    · have hround := le_roundHalfEven hgt.le
      have := Format.single.nearest_mono (by linarith) (add_le_add_left hgt.le 12582912)
      omega

end QuantizedGemm
