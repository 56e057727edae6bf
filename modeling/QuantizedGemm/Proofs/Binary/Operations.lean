import QuantizedGemm.Proofs.Binary.Scaled

/-!
# Operations on finite words

Every operation on finite words is the exact operation on `ℚ`, rounded once. The statements leave
infinities and undefined operands aside; on those the operations are told apart by cases.

## From cases to numbers

An operation first asks what kind its operands are of, and only then computes. For finite operands
the answers are known, so that each operation has one lemma here that skips the cases
(`Binary.mul_of_isFinite`, `Binary.div_of_isFinite`, `Binary.add_of_isFinite`), and no later proof
looks at them again. Conversions to and from integers are of the same kind: rounding to an integer
is rounding the number that the word stands for (`Binary.nearestInt_eq`).
-/

namespace QuantizedGemm

theorem roundHalfEven_neg (q : ℚ) : roundHalfEven (-q) = -roundHalfEven q := by
  have hfloor : ∀ r : ℚ, Rat.floor r = ⌊r⌋ := fun _ ↦ rfl
  by_cases hint : (⌊q⌋ : ℚ) = q
  · rw [← hint, ← Int.cast_neg, roundHalfEven_intCast, roundHalfEven_intCast]
  have h1 : (⌊q⌋ : ℚ) < q := lt_of_le_of_ne (Int.floor_le q) hint
  have h2 : q < ⌊q⌋ + 1 := Int.lt_floor_add_one q
  have hneg : ⌊-q⌋ = -⌊q⌋ - 1 := by
    rw [Int.floor_eq_iff]
    push_cast
    constructor <;> linarith
  simp only [roundHalfEven, hfloor, hneg]
  push_cast
  split_ifs <;> first | omega | (exfalso; linarith)

namespace Binary

variable {f g : Format}

theorem coefficient_mul_pow (x : Binary f) :
    (x.coefficient : ℚ) * (2 : ℚ) ^ x.exponent = x.toRat := by
  unfold coefficient toRat Format.value exponent
  split_ifs <;> push_cast <;> ring

theorem coefficientAt_mul_pow (x : Binary f) {e : ℤ} (h : e ≤ x.exponent) :
    (x.coefficientAt e : ℚ) * (2 : ℚ) ^ e = x.toRat := by
  rw [← coefficient_mul_pow, coefficientAt, Nat.one_shiftLeft]
  push_cast
  rw [mul_assoc, ← zpow_natCast, Int.toNat_of_nonneg (by omega), ← zpow_add₀ (by norm_num),
    sub_add_cancel]

@[simp] theorem ofScaled_eq (n e : ℤ) :
    (ofScaled n e : Binary f) = ofRat ((n : ℚ) * (2 : ℚ) ^ e) := by
  have hpos : (0 : ℚ) < (2 : ℚ) ^ e := by positivity
  have habs : ((n.natAbs : ℕ) : ℚ) = |(n : ℚ)| := by
    rw [← Int.cast_abs, Int.abs_eq_natAbs, Int.cast_natCast]
  unfold ofScaled ofRat
  rw [Format.nearestScaled_eq, habs]
  by_cases hn : n < 0
  · have hq : (n : ℚ) < 0 := by exact_mod_cast hn
    simp only [hn, decide_true, mul_neg_of_neg_of_pos hq hpos, if_true, abs_of_neg hq, neg_mul]
  · have hq : (0 : ℚ) ≤ n := by exact_mod_cast not_lt.1 hn
    simp only [hn, decide_false, not_lt.2 (mul_nonneg hq hpos.le), if_false, abs_of_nonneg hq]

@[simp] theorem ofInt_eq (n : ℤ) : (ofInt n : Binary f) = ofRat n := by
  rw [ofInt, ofScaled_eq, zpow_zero, mul_one]

theorem isNaN_of_isFinite {x : Binary f} (h : x.isFinite) : x.isNaN = false := by
  simp only [isFinite, isNaN, decide_eq_true_eq, decide_eq_false_iff_not] at *
  omega

theorem isInfinite_of_isFinite {x : Binary f} (h : x.isFinite) : x.isInfinite = false := by
  simp only [isFinite, isInfinite, decide_eq_true_eq, decide_eq_false_iff_not] at *
  omega

theorem mul_of_isFinite {x y : Binary f} (hx : x.isFinite) (hy : y.isFinite) :
    x * y = ofMagnitude (x.isNegative != y.isNegative)
      (f.nearest (f.value x.magnitude * f.value y.magnitude)) := by
  have h : ((f.significand x.magnitude * f.significand y.magnitude : ℕ) : ℚ) *
      (2 : ℚ) ^ (x.exponent + y.exponent) = f.value x.magnitude * f.value y.magnitude := by
    rw [zpow_add₀ (by norm_num)]
    push_cast
    unfold Format.value exponent
    ring
  change mul x y = _
  simp [mul, isNaN_of_isFinite hx, isNaN_of_isFinite hy, isInfinite_of_isFinite hx,
    isInfinite_of_isFinite hy, Format.nearestScaled_eq, ← h]

theorem div_of_isFinite {x y : Binary f} (hx : x.isFinite) (hy : y.isFinite)
    (hzero : y.isZero = false) :
    x / y = ofMagnitude (x.isNegative != y.isNegative)
      (f.nearest (f.value x.magnitude / f.value y.magnitude)) := by
  change div x y = _
  simp [div, isNaN_of_isFinite hx, isNaN_of_isFinite hy, isInfinite_of_isFinite hx,
    isInfinite_of_isFinite hy, hzero]

theorem add_of_isFinite {x y : Binary f} (hx : x.isFinite) (hy : y.isFinite) :
    x + y = if x.toRat + y.toRat = 0 then ofMagnitude (x.isNegative && y.isNegative) 0
      else ofRat (x.toRat + y.toRat) := by
  have hpos : (0 : ℚ) < (2 : ℚ) ^ min x.exponent y.exponent := by positivity
  have hsum : ((x.coefficientAt (min x.exponent y.exponent) +
      y.coefficientAt (min x.exponent y.exponent) : ℤ) : ℚ) *
      (2 : ℚ) ^ min x.exponent y.exponent = x.toRat + y.toRat := by
    push_cast
    rw [add_mul, coefficientAt_mul_pow x (min_le_left _ _),
      coefficientAt_mul_pow y (min_le_right _ _)]
  change add x y = _
  simp only [add, isNaN_of_isFinite hx, isNaN_of_isFinite hy, isInfinite_of_isFinite hx,
    isInfinite_of_isFinite hy, Bool.or_self, Bool.false_eq_true, if_false, ofScaled_eq, hsum]
  refine if_congr ?_ rfl rfl
  rw [← hsum, mul_eq_zero, or_iff_left hpos.ne', Int.cast_eq_zero]

theorem convert_of_isFinite {x : Binary f} (hx : x.isFinite) :
    (x.convert : Binary g) = ofMagnitude x.isNegative (g.nearest (f.value x.magnitude)) := by
  simp [convert, isNaN_of_isFinite hx, isInfinite_of_isFinite hx, Format.nearestScaled_eq,
    Format.value, exponent]

@[simp] theorem nearestNat_eq (x : Binary f) :
    (x.nearestNat : ℤ) = roundHalfEven (f.value x.magnitude) := by
  have hvalue : f.value x.magnitude = (f.significand x.magnitude : ℚ) * (2 : ℚ) ^ x.exponent := rfl
  cases he : x.exponent with
  | ofNat k =>
    have h : f.value x.magnitude = ((f.significand x.magnitude <<< k : ℕ) : ℤ) := by
      rw [hvalue, he, Nat.shiftLeft_eq]
      push_cast
      rw [Int.ofNat_eq_natCast, zpow_natCast]
    simp only [nearestNat, he, h, roundHalfEven_intCast]
  | negSucc k =>
    simp only [nearestNat, he, hvalue, shiftRightEven_eq, zpow_negSucc, div_eq_mul_inv]

@[simp] theorem nearestInt_eq (x : Binary f) : x.nearestInt = roundHalfEven x.toRat := by
  unfold nearestInt toRat
  split_ifs
  · rw [roundHalfEven_neg, nearestNat_eq]
  · exact nearestNat_eq x

end Binary

end QuantizedGemm
