import QuantizedGemm.Proofs.Binary.Order

/-!
# Words as numbers

A word is a sign and a magnitude. Its `rank` orders all words that are numbers, infinities included,
and finite words are ordered by rank as by the rationals they stand for (`less_iff_toRat`).

## Clamping

Clamping between finite bounds always ends in a finite word, whatever it starts from (`clamp_mem`),
and is the clamp of `ℚ` where it starts from a finite one (`toRat_clamp`). An undefined word goes to
the lower bound, as comparisons with it fail. That is why a product need not be finite for what
comes after it to be: infinities and undefined words do not get past a clamp.

## Nearest words

Rounding a rational number to a word is odd in the number and rounds its size to a magnitude. So
what is known of magnitudes carries over to words of both signs: rounding is monotone
(`toRat_ofRat_mono`), and bounds that are representable survive it (`toRat_ofRat_bounds`).
-/

namespace QuantizedGemm

namespace Format

/-- The number at a position in the order of finite words. -/
def signedValue (f : Format) (r : ℤ) : ℚ := if r < 0 then -f.value r.natAbs else f.value r.natAbs

theorem signedValue_lt_signedValue (f : Format) {r s : ℤ} (h : r < s) :
    f.signedValue r < f.signedValue s := by
  unfold signedValue
  split_ifs with hr hs
  · exact neg_lt_neg (f.value_strictMono (by omega))
  · have := f.value_pos (show 0 < r.natAbs by omega)
    linarith [f.value_nonneg s.natAbs]
  · omega
  · exact f.value_strictMono (by omega)

end Format

namespace Binary

variable {f : Format}

/-! ## Sign and magnitude -/

theorem infinityBits_lt_signBit (hf : 0 < f.precision) : f.infinityBits < signBit f := by
  have hpow : 2 ^ f.exponentBits * 2 ^ f.fractionBits = 2 ^ (f.width - 1) := by
    rw [← Nat.pow_add, Format.width, Format.fractionBits]
    congr 1
    omega
  rw [Format.infinityBits, signBit, Nat.one_shiftLeft, Nat.one_shiftLeft, Nat.shiftLeft_eq, ← hpow]
  exact Nat.mul_lt_mul_of_pos_right (Nat.sub_lt (by positivity) one_pos) (by positivity)

theorem toNat_bits_ofMagnitude (hf : 0 < f.precision) (negative : Bool) {m : ℕ}
    (hm : m < signBit f) :
    (ofMagnitude negative m : Binary f).bits.toNat = if negative then signBit f + m else m := by
  have hwidth : 2 ^ f.width = signBit f + signBit f := by
    rw [signBit, Nat.one_shiftLeft, ← Nat.two_mul, ← Nat.pow_succ']
    congr 1
    rw [Format.width]
    omega
  simp only [ofMagnitude, ofBits, BitVec.toNat_ofNat, hwidth]
  split_ifs <;> exact Nat.mod_eq_of_lt (by omega)

theorem magnitude_ofMagnitude (hf : 0 < f.precision) (negative : Bool) {m : ℕ}
    (hm : m < signBit f) : (ofMagnitude negative m : Binary f).magnitude = m := by
  rw [magnitude, toNat_bits_ofMagnitude hf negative hm]
  split_ifs
  · rw [Nat.add_mod_left, Nat.mod_eq_of_lt hm]
  · exact Nat.mod_eq_of_lt hm

theorem isNegative_ofMagnitude (hf : 0 < f.precision) (negative : Bool) {m : ℕ}
    (hm : m < signBit f) : (ofMagnitude negative m : Binary f).isNegative = negative := by
  rw [isNegative, toNat_bits_ofMagnitude hf negative hm]
  cases negative <;> simp [hm]

theorem toRat_of_isNegative {x : Binary f} (h : x.isNegative = false) :
    x.toRat = f.value x.magnitude := by
  rw [toRat, h, if_neg (by simp)]

theorem isNegative_of_toRat_pos {x : Binary f} (h : 0 < x.toRat) : x.isNegative = false := by
  by_contra hneg
  rw [toRat, if_pos (by simpa using hneg)] at h
  linarith [f.value_nonneg x.magnitude]

theorem isZero_of_toRat_pos {x : Binary f} (h : 0 < x.toRat) : x.isZero = false := by
  refine decide_eq_false fun hzero ↦ h.ne' ?_
  rw [toRat_of_isNegative (isNegative_of_toRat_pos h), hzero, Format.value_zero]

theorem abs_toRat (x : Binary f) : |x.toRat| = f.value x.magnitude := by
  have hnonneg := f.value_nonneg x.magnitude
  rw [toRat]
  split_ifs
  · rw [abs_neg, abs_of_nonneg hnonneg]
  · exact abs_of_nonneg hnonneg

theorem isFinite_ofMagnitude (hf : 0 < f.precision) (negative : Bool) {m : ℕ}
    (hm : m < f.infinityBits) : (ofMagnitude negative m : Binary f).isFinite := by
  rw [isFinite, magnitude_ofMagnitude hf negative (hm.trans (infinityBits_lt_signBit hf))]
  exact decide_eq_true hm

theorem toRat_ofMagnitude (hf : 0 < f.precision) (negative : Bool) {m : ℕ}
    (hm : m < signBit f) :
    (ofMagnitude negative m : Binary f).toRat = if negative then -f.value m else f.value m := by
  rw [toRat, isNegative_ofMagnitude hf negative hm, magnitude_ofMagnitude hf negative hm]

theorem isFinite_neg (hf : 0 < f.precision) {x : Binary f} (hx : x.isFinite) : (-x).isFinite :=
  isFinite_ofMagnitude hf _ (of_decide_eq_true hx)

theorem toRat_neg (hf : 0 < f.precision) {x : Binary f} (hx : x.isFinite) :
    (-x).toRat = -x.toRat := by
  have hlt : x.magnitude < signBit f := (of_decide_eq_true hx).trans (infinityBits_lt_signBit hf)
  change (ofMagnitude (!x.isNegative) x.magnitude : Binary f).toRat = _
  rw [toRat_ofMagnitude hf _ hlt, toRat]
  cases x.isNegative <;> simp

theorem isFinite_of_abs_toRat_lt {x : Binary f} (h : |x.toRat| < f.value f.infinityBits) :
    x.isFinite := by
  rw [abs_toRat, f.value_strictMono.lt_iff_lt] at h
  exact decide_eq_true h

/-! ## The nearest word -/

theorem toRat_ofRat_eq (hf : 0 < f.precision) (q : ℚ) :
    (ofRat q : Binary f).toRat =
      if q < 0 then -f.value (f.nearest (-q)) else f.value (f.nearest q) := by
  have hsign : ∀ r, f.nearest r < signBit f :=
    fun r ↦ (f.nearest_le_infinityBits r).trans_lt (infinityBits_lt_signBit hf)
  unfold ofRat
  split_ifs
  · rw [toRat_ofMagnitude hf true (hsign _), if_pos rfl]
  · rw [toRat_ofMagnitude hf false (hsign _), if_neg (by simp)]

/-- Rounding to a word is monotone, on both sides of zero and across it. -/
theorem toRat_ofRat_mono (hf : 0 < f.precision) {q r : ℚ} (h : q ≤ r) :
    (ofRat q : Binary f).toRat ≤ (ofRat r : Binary f).toRat := by
  rw [toRat_ofRat_eq hf, toRat_ofRat_eq hf]
  split_ifs with hq hr hr
  · exact neg_le_neg
      (f.value_strictMono.monotone (f.nearest_mono (by linarith) (neg_le_neg h)))
  · linarith [f.value_nonneg (f.nearest (-q)), f.value_nonneg (f.nearest r)]
  · linarith
  · exact f.value_strictMono.monotone (f.nearest_mono (not_lt.1 hq) h)

theorem toRat_ofRat_neg (hf : 0 < f.precision) (q : ℚ) :
    (ofRat (-q) : Binary f).toRat = -(ofRat q : Binary f).toRat := by
  rw [toRat_ofRat_eq hf, toRat_ofRat_eq hf]
  rcases lt_trichotomy q 0 with hq | rfl | hq
  · rw [if_neg (by linarith), if_pos hq, neg_neg]
  · simp [Format.nearest]
  · rw [if_pos (by linarith), if_neg (by linarith), neg_neg]

theorem toRat_ofRat (hf : 0 < f.precision) {q : ℚ} (h : f.Represents |q|) :
    (ofRat q : Binary f).isFinite ∧ (ofRat q : Binary f).toRat = q := by
  have heq : (ofRat q : Binary f).toRat = q := by
    have hnearest := h.nearest_eq.2
    rw [toRat_ofRat_eq hf]
    split_ifs with hq
    · rw [← abs_of_neg hq, hnearest, abs_of_neg hq, neg_neg]
    · rwa [abs_of_nonneg (not_lt.1 hq)] at hnearest
  refine ⟨isFinite_of_abs_toRat_lt ?_, heq⟩
  rw [heq]
  exact h.lt_infinity

/-- A number within representable bounds of either sign rounds to a finite word within them. -/
theorem toRat_ofRat_bounds (hf : 0 < f.precision) {q b : ℚ} (hb : f.Represents b) (h : |q| ≤ b) :
    (ofRat q : Binary f).isFinite ∧ |(ofRat q : Binary f).toRat| ≤ b := by
  have hhigh : (ofRat b : Binary f).toRat = b :=
    (toRat_ofRat hf (by rwa [abs_of_nonneg hb.nonneg])).2
  have hlow : (ofRat (-b) : Binary f).toRat = -b := by rw [toRat_ofRat_neg hf, hhigh]
  obtain ⟨h₀, h₁⟩ := abs_le.mp h
  have hle : |(ofRat q : Binary f).toRat| ≤ b :=
    abs_le.mpr ⟨hlow ▸ toRat_ofRat_mono hf h₀, hhigh ▸ toRat_ofRat_mono hf h₁⟩
  exact ⟨isFinite_of_abs_toRat_lt (hle.trans_lt hb.lt_infinity), hle⟩

/-- A product of finite words is the product of their numbers, rounded once. It may be infinite. -/
theorem toRat_mul (hf : 0 < f.precision) {x y : Binary f} (hx : x.isFinite) (hy : y.isFinite) :
    (x * y).toRat = (ofRat (x.toRat * y.toRat) : Binary f).toRat := by
  have hnonneg := mul_nonneg (f.value_nonneg x.magnitude) (f.value_nonneg y.magnitude)
  have hsign := (f.nearest_le_infinityBits (f.value x.magnitude * f.value y.magnitude)).trans_lt
    (infinityBits_lt_signBit hf)
  have habs := toRat_ofRat_eq hf (f.value x.magnitude * f.value y.magnitude)
  rw [if_neg (not_lt.2 hnonneg)] at habs
  have hdef : ∀ z : Binary f, z.toRat = if z.isNegative then -f.value z.magnitude
      else f.value z.magnitude := fun _ ↦ rfl
  rw [mul_of_isFinite hx hy, toRat_ofMagnitude hf _ hsign, ← habs, hdef x, hdef y]
  cases x.isNegative <;> cases y.isNegative <;> simp [toRat_ofRat_neg hf]

/-! ## Order -/

theorem toRat_eq_signedValue (x : Binary f) : x.toRat = f.signedValue x.rank := by
  unfold toRat rank Format.signedValue
  cases x.isNegative with
  | false => simp
  | true =>
    rcases Nat.eq_zero_or_pos x.magnitude with h | h
    · simp [h]
    · simp [h]

theorem natAbs_rank (x : Binary f) : x.rank.natAbs = x.magnitude := by
  unfold rank
  split_ifs <;> omega

theorem isFinite_iff_rank (x : Binary f) : x.isFinite ↔ x.rank.natAbs < f.infinityBits := by
  rw [natAbs_rank, isFinite, decide_eq_true_eq]

theorem less_eq_decide {x y : Binary f} (hx : x.isNaN = false) (hy : y.isNaN = false) :
    x.less y = decide (x.rank < y.rank) := by
  simp [less, hx, hy]

theorem less_iff_toRat {x y : Binary f} (hx : x.isFinite) (hy : y.isFinite) :
    x.less y ↔ x.toRat < y.toRat := by
  have hmono : StrictMono f.signedValue := fun _ _ ↦ f.signedValue_lt_signedValue
  rw [less_eq_decide (isNaN_of_isFinite hx) (isNaN_of_isFinite hy), decide_eq_true_eq,
    toRat_eq_signedValue, toRat_eq_signedValue, hmono.lt_iff_lt]

theorem rank_maxNum {x y : Binary f} (hx : x.isNaN = false) (hy : y.isNaN = false) :
    (x.maxNum y).rank = max x.rank y.rank ∧ (x.maxNum y).isNaN = false := by
  simp only [maxNum, hx, less_eq_decide hx hy, Bool.false_eq_true, if_false, decide_eq_true_eq]
  split_ifs with h
  · exact ⟨(max_eq_right h.le).symm, hy⟩
  · exact ⟨(max_eq_left (not_lt.1 h)).symm, hx⟩

theorem rank_minNum {x y : Binary f} (hx : x.isNaN = false) (hy : y.isNaN = false) :
    (x.minNum y).rank = min x.rank y.rank ∧ (x.minNum y).isNaN = false := by
  simp only [minNum, hx, less_eq_decide hy hx, Bool.false_eq_true, if_false, decide_eq_true_eq]
  split_ifs with h
  · exact ⟨(min_eq_right h.le).symm, hy⟩
  · exact ⟨(min_eq_left (not_lt.1 h)).symm, hx⟩

/-- An undefined word clamps to the lower bound, if that does not exceed the upper one. -/
theorem rank_clamp_of_isNaN {x lo hi : Binary f} (hx : x.isNaN) (hlo : lo.isFinite)
    (hhi : hi.isFinite) : ((x.maxNum lo).minNum hi).rank = min lo.rank hi.rank := by
  rw [maxNum, if_pos hx]
  exact (rank_minNum (isNaN_of_isFinite hlo) (isNaN_of_isFinite hhi)).1

theorem rank_clamp {x lo hi : Binary f} (hx : x.isNaN = false) (hlo : lo.isFinite)
    (hhi : hi.isFinite) :
    ((x.maxNum lo).minNum hi).rank = min (max x.rank lo.rank) hi.rank := by
  obtain ⟨hmax, hnan⟩ := rank_maxNum hx (isNaN_of_isFinite hlo)
  rw [(rank_minNum hnan (isNaN_of_isFinite hhi)).1, hmax]

/-- Whatever is clamped, the result is a finite word between the bounds. -/
theorem clamp_mem (x : Binary f) {lo hi : Binary f} (hlo : lo.isFinite) (hhi : hi.isFinite) :
    ((x.maxNum lo).minNum hi).isFinite ∧
      min lo.toRat hi.toRat ≤ ((x.maxNum lo).minNum hi).toRat ∧
      ((x.maxNum lo).minNum hi).toRat ≤ hi.toRat := by
  have hrank : min lo.rank hi.rank ≤ ((x.maxNum lo).minNum hi).rank ∧
      ((x.maxNum lo).minNum hi).rank ≤ hi.rank := by
    cases hx : x.isNaN with
    | true => rw [rank_clamp_of_isNaN hx hlo hhi]; omega
    | false => rw [rank_clamp hx hlo hhi]; omega
  have hmono : Monotone f.signedValue :=
    StrictMono.monotone fun _ _ ↦ f.signedValue_lt_signedValue
  simp only [isFinite_iff_rank, toRat_eq_signedValue] at *
  refine ⟨by omega, ?_, hmono hrank.2⟩
  rw [← hmono.map_min]
  exact hmono hrank.1

theorem toRat_clamp {x lo hi : Binary f} (hx : x.isFinite) (hlo : lo.isFinite)
    (hhi : hi.isFinite) :
    ((x.maxNum lo).minNum hi).toRat = min (max x.toRat lo.toRat) hi.toRat := by
  have hmono : Monotone f.signedValue :=
    StrictMono.monotone fun _ _ ↦ f.signedValue_lt_signedValue
  simp only [toRat_eq_signedValue, rank_clamp (isNaN_of_isFinite hx) hlo hhi, hmono.map_min,
    hmono.map_max]

theorem laneMin_of_isFinite {x y : Binary f} (hx : x.isFinite) (hy : y.isFinite) :
    (x.laneMin y).isFinite ∧ (x.laneMin y).toRat = min x.toRat y.toRat := by
  unfold laneMin
  split_ifs with h
  · exact ⟨hx, (min_eq_left ((less_iff_toRat hx hy).1 h).le).symm⟩
  · exact ⟨hy, (min_eq_right (not_lt.1 fun h' ↦ h ((less_iff_toRat hx hy).2 h'))).symm⟩

/-! ## Signed integers -/

theorem toInt_signedBits (x : Binary32) :
    x.signedBits.toInt =
      if x.isNegative then (x.magnitude : ℤ) - (2 : ℤ) ^ 31 else (x.magnitude : ℤ) := by
  have hlt : x.bits.toNat < 2 ^ 32 := x.bits.isLt
  have hsign : signBit Format.single = 2 ^ 31 := rfl
  have hcast : x.signedBits.toInt = (x.bits.toNat : ℤ).bmod (2 ^ 32) := by
    rw [signedBits, ← Int32.toInt_toBitVec, UInt32.toBitVec_toInt32, BitVec.toInt_eq_toNat_bmod,
      UInt32.toNat_toBitVec, UInt32.toNat_ofNat_of_lt' hlt]
  have hmag : x.magnitude = x.bits.toNat % 2 ^ 31 := by rw [magnitude, hsign]
  have hneg : x.isNegative = true ↔ 2 ^ 31 ≤ x.bits.toNat := by
    rw [isNegative, hsign, decide_eq_true_eq]
  rw [hcast, hmag, Int.bmod_def]
  simp only [hneg]
  split_ifs <;> omega

end Binary

end QuantizedGemm
