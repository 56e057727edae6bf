import Mathlib.Algebra.Order.Archimedean.Basic
import QuantizedGemm.Proofs.Binary.Operations

/-!
# Rounding respects the order

Consecutive magnitudes are one place apart (`value_succ`), so magnitudes are ordered as the numbers
they stand for. `Format.nearest` goes back: it is monotone (`nearest_mono`) and fixes what is
representable (`nearest_value`). Together the two bound a rounded result by any representable
number on either side of the exact one, and no estimate of a rounding error is ever needed.
-/

namespace QuantizedGemm

/-! ## The nearest integer -/

theorem roundHalfEven_eq_or (q : ℚ) : roundHalfEven q = ⌊q⌋ ∨ roundHalfEven q = ⌊q⌋ + 1 := by
  have hfloor : Rat.floor q = ⌊q⌋ := rfl
  simp only [roundHalfEven, hfloor]
  split_ifs <;> simp

theorem roundHalfEven_mono {q r : ℚ} (h : q ≤ r) : roundHalfEven q ≤ roundHalfEven r := by
  rcases (Int.floor_mono h).lt_or_eq with hlt | heq
  · have hq : roundHalfEven q ≤ ⌊q⌋ + 1 := by rcases roundHalfEven_eq_or q with h | h <;> omega
    have hr : ⌊r⌋ ≤ roundHalfEven r := by rcases roundHalfEven_eq_or r with h | h <;> omega
    omega
  · have hfloor : ∀ x : ℚ, Rat.floor x = ⌊x⌋ := fun _ ↦ rfl
    simp only [roundHalfEven, hfloor, heq]
    split_ifs <;> first | omega | (exfalso; linarith)

/-- A shift by an even integer keeps ties on the same side. -/
theorem roundHalfEven_add_even (q : ℚ) (n : ℤ) :
    roundHalfEven (q + (2 * n : ℤ)) = roundHalfEven q + 2 * n := by
  have hfloor : ∀ x : ℚ, Rat.floor x = ⌊x⌋ := fun _ ↦ rfl
  have hparity : (⌊q⌋ + 2 * n) % 2 = ⌊q⌋ % 2 := by omega
  have hrest : q + (2 * n : ℤ) - ((⌊q⌋ + 2 * n : ℤ) : ℚ) = q - ⌊q⌋ := by
    push_cast
    ring
  simp only [roundHalfEven, hfloor, Int.floor_add_intCast, hparity, hrest]
  split_ifs <;> ring

theorem le_roundHalfEven {n : ℤ} {q : ℚ} (h : (n : ℚ) ≤ q) : n ≤ roundHalfEven q := by
  rw [← roundHalfEven_intCast n]
  exact roundHalfEven_mono h

theorem roundHalfEven_le {n : ℤ} {q : ℚ} (h : q ≤ n) : roundHalfEven q ≤ n := by
  rw [← roundHalfEven_intCast n]
  exact roundHalfEven_mono h

theorem roundHalfEven_max (q : ℚ) (n : ℤ) :
    roundHalfEven (max q n) = max (roundHalfEven q) n := by
  rcases le_total q n with h | h
  · rw [max_eq_right h, max_eq_right (roundHalfEven_le h), roundHalfEven_intCast]
  · rw [max_eq_left h, max_eq_left (le_roundHalfEven h)]

theorem roundHalfEven_min (q : ℚ) (n : ℤ) :
    roundHalfEven (min q n) = min (roundHalfEven q) n := by
  rcases le_total q n with h | h
  · rw [min_eq_left h, min_eq_left (roundHalfEven_le h)]
  · rw [min_eq_right h, min_eq_right (le_roundHalfEven h), roundHalfEven_intCast]

/-! ## The exponent of a number -/

theorem floorLog2_spec {q : ℚ} (hq : 0 < q) :
    (2 : ℚ) ^ floorLog2 q ≤ q ∧ q < (2 : ℚ) ^ (floorLog2 q + 1) := by
  obtain ⟨e, hlow, hhigh⟩ := exists_mem_Ico_zpow hq (by norm_num : (1 : ℚ) < 2)
  rw [floorLog2_eq hlow hhigh]
  exact ⟨hlow, hhigh⟩

theorem floorLog2_mono {q r : ℚ} (hq : 0 < q) (h : q ≤ r) : floorLog2 q ≤ floorLog2 r := by
  have hlow := (floorLog2_spec hq).1
  have hhigh := (floorLog2_spec (hq.trans_le h)).2
  have := (zpow_lt_zpow_iff_right₀ (by norm_num : (1 : ℚ) < 2)).1 ((hlow.trans h).trans_lt hhigh)
  omega

namespace Format

variable (f : Format)

/-! ## Magnitudes in order -/

theorem significand_of_lt {m : ℕ} (h : m < 2 ^ f.fractionBits) : f.significand m = m := by
  simp [significand, Nat.shiftRight_eq_div_pow, Nat.div_eq_of_lt h]

theorem placeExponent_of_lt {m : ℕ} (h : m < 2 ^ f.fractionBits) :
    f.placeExponent m = f.leastExponent := by
  simp [placeExponent, Nat.shiftRight_eq_div_pow, Nat.div_eq_of_lt h]

theorem significand_of_normal (e : ℕ) {r : ℕ} (hr : r < 2 ^ f.fractionBits) :
    f.significand ((e + 1) * 2 ^ f.fractionBits + r) = 2 ^ f.fractionBits + r := by
  have hpos : 0 < 2 ^ f.fractionBits := by positivity
  have hdiv : ((e + 1) * 2 ^ f.fractionBits + r) / 2 ^ f.fractionBits = e + 1 := by
    rw [Nat.add_comm, Nat.add_mul_div_right _ _ hpos, Nat.div_eq_of_lt hr, Nat.zero_add]
  have hmod : ((e + 1) * 2 ^ f.fractionBits + r) % 2 ^ f.fractionBits = r := by
    rw [Nat.add_comm, Nat.add_mul_mod_self_right, Nat.mod_eq_of_lt hr]
  simp only [significand, Nat.shiftRight_eq_div_pow, Nat.one_shiftLeft, hdiv, hmod,
    Nat.succ_ne_zero, if_false]
  omega

theorem placeExponent_of_normal (e : ℕ) {r : ℕ} (hr : r < 2 ^ f.fractionBits) :
    f.placeExponent ((e + 1) * 2 ^ f.fractionBits + r) = f.leastExponent + e := by
  have hpos : 0 < 2 ^ f.fractionBits := by positivity
  have hdiv : ((e + 1) * 2 ^ f.fractionBits + r) / 2 ^ f.fractionBits = e + 1 := by
    rw [Nat.add_comm, Nat.add_mul_div_right _ _ hpos, Nat.div_eq_of_lt hr, Nat.zero_add]
  simp [placeExponent, Nat.shiftRight_eq_div_pow, hdiv]

theorem value_of_lt {m : ℕ} (h : m < 2 ^ f.fractionBits) :
    f.value m = (m : ℚ) * (2 : ℚ) ^ f.leastExponent := by
  rw [value, f.significand_of_lt h, f.placeExponent_of_lt h]

theorem value_of_normal (e : ℕ) {r : ℕ} (hr : r < 2 ^ f.fractionBits) :
    f.value ((e + 1) * 2 ^ f.fractionBits + r) =
      ((2 ^ f.fractionBits + r : ℕ) : ℚ) * (2 : ℚ) ^ (f.leastExponent + e) := by
  rw [value, f.significand_of_normal e hr, f.placeExponent_of_normal e hr]

theorem magnitude_cases (m : ℕ) : m < 2 ^ f.fractionBits ∨
    ∃ e r, r < 2 ^ f.fractionBits ∧ m = (e + 1) * 2 ^ f.fractionBits + r := by
  rcases Nat.lt_or_ge m (2 ^ f.fractionBits) with h | h
  · exact Or.inl h
  · have hpos : 0 < 2 ^ f.fractionBits := by positivity
    obtain ⟨e, he⟩ : ∃ e, m / 2 ^ f.fractionBits = e + 1 :=
      Nat.exists_eq_succ_of_ne_zero (Nat.div_pos h hpos).ne'
    exact Or.inr ⟨e, m % 2 ^ f.fractionBits, Nat.mod_lt _ hpos, by rw [← he, Nat.div_add_mod']⟩

/-- The next magnitude is one place further on, also where the exponent changes. -/
theorem value_succ (m : ℕ) : f.value (m + 1) = f.value m + (2 : ℚ) ^ f.placeExponent m := by
  have hpos : 0 < 2 ^ f.fractionBits := by positivity
  rcases f.magnitude_cases m with h | ⟨e, r, hr, rfl⟩
  · rw [f.value_of_lt h, f.placeExponent_of_lt h]
    rcases Nat.lt_or_ge (m + 1) (2 ^ f.fractionBits) with h' | h'
    · rw [f.value_of_lt h']
      push_cast
      ring
    · -- the least normal magnitude follows the greatest subnormal one
      have hnext : m + 1 = (0 + 1) * 2 ^ f.fractionBits + 0 := by omega
      have hsum : 2 ^ f.fractionBits + 0 = m + 1 := by omega
      rw [hnext, f.value_of_normal 0 hpos, hsum]
      push_cast
      ring_nf
  · rw [f.value_of_normal e hr, f.placeExponent_of_normal e hr]
    rcases Nat.lt_or_ge (r + 1) (2 ^ f.fractionBits) with h' | h'
    · rw [Nat.add_assoc, f.value_of_normal e h']
      push_cast
      ring
    · -- a full fraction carries into the exponent
      have hnext : (e + 1) * 2 ^ f.fractionBits + r + 1 =
          (e + 1 + 1) * 2 ^ f.fractionBits + 0 := by
        rw [Nat.succ_mul (e + 1)]
        omega
      rw [hnext, f.value_of_normal (e + 1) hpos]
      have hsum : (2 : ℚ) ^ f.fractionBits = r + 1 := by
        exact_mod_cast (show 2 ^ f.fractionBits = r + 1 by omega)
      push_cast
      rw [← add_assoc, zpow_add_one₀ (by norm_num), hsum]
      ring

theorem value_strictMono : StrictMono f.value := strictMono_nat_of_lt_succ fun m ↦ by
  rw [value_succ]
  have : (0 : ℚ) < (2 : ℚ) ^ f.placeExponent m := by positivity
  linarith

@[simp] theorem value_zero : f.value 0 = 0 := by
  simp [value, f.significand_of_lt (show 0 < 2 ^ f.fractionBits by positivity)]

theorem value_nonneg (m : ℕ) : 0 ≤ f.value m := by
  rw [← f.value_zero]
  exact f.value_strictMono.monotone (Nat.zero_le m)

theorem value_pos {m : ℕ} (h : 0 < m) : 0 < f.value m := by
  rw [← f.value_zero]
  exact f.value_strictMono h

theorem value_infinityBits (hp : 1 < f.exponentBits) (hf : 0 < f.precision) :
    f.value f.infinityBits = (2 : ℚ) ^ (2 ^ (f.exponentBits - 1)) := by
  have hpos : 0 < 2 ^ f.fractionBits := by positivity
  obtain ⟨b, hb⟩ : ∃ b, f.exponentBits = b + 1 := ⟨f.exponentBits - 1, by omega⟩
  obtain ⟨e, he⟩ : ∃ e, 2 ^ f.exponentBits = e + 2 := by
    have : 2 ^ 1 ≤ 2 ^ f.exponentBits := Nat.pow_le_pow_right (by norm_num) hp.le
    exact ⟨2 ^ f.exponentBits - 2, by omega⟩
  have hbits : f.infinityBits = (e + 1) * 2 ^ f.fractionBits + 0 := by
    rw [infinityBits, Nat.one_shiftLeft, Nat.shiftLeft_eq, he]
    rfl
  have hdouble : 2 ^ b + 2 ^ b = e + 2 := by rw [← he, hb, Nat.pow_succ]; omega
  rw [hbits, f.value_of_normal e hpos]
  have hexp : f.leastExponent + e = ((2 ^ b : ℕ) : ℤ) - f.fractionBits := by
    rw [leastExponent, Nat.one_shiftLeft, fractionBits, hb, Nat.add_sub_cancel]
    omega
  rw [hexp, Nat.add_zero, hb, Nat.add_sub_cancel, zpow_sub₀ (by norm_num)]
  push_cast
  rw [zpow_natCast]
  have : (2 : ℚ) ^ f.fractionBits ≠ 0 := by positivity
  rw [mul_div_cancel₀ _ this, ← zpow_natCast]
  norm_cast

/-! ## Rounding to a magnitude -/

theorem resultExponent_value {m : ℕ} (h : 0 < m) :
    f.resultExponent (f.value m) = f.placeExponent m := by
  rcases f.magnitude_cases m with hm | ⟨e, r, hr, rfl⟩
  · have hlog : m.log2 < f.fractionBits := (Nat.log2_lt h.ne').2 hm
    rw [resultExponent, f.value_of_lt hm, f.placeExponent_of_lt hm, floorLog2_scaled h.ne']
    omega
  · have hsig : 2 ^ f.fractionBits + r ≠ 0 := by positivity
    have hlog : (2 ^ f.fractionBits + r).log2 = f.fractionBits := by
      rw [Nat.log2_eq_iff hsig]
      exact ⟨by omega, by rw [Nat.pow_succ]; omega⟩
    rw [resultExponent, f.value_of_normal e hr, f.placeExponent_of_normal e hr,
      floorLog2_scaled hsig, hlog]
    omega

/-- The magnitude of a significand at the place of a magnitude is that magnitude. -/
theorem shiftLeft_place_add_significand (m : ℕ) :
    ((f.placeExponent m - f.leastExponent).toNat <<< f.fractionBits) + f.significand m = m := by
  rcases f.magnitude_cases m with h | ⟨e, r, hr, rfl⟩
  · rw [f.significand_of_lt h, f.placeExponent_of_lt h]
    simp
  · rw [f.significand_of_normal e hr, f.placeExponent_of_normal e hr, Nat.shiftLeft_eq,
      show (f.leastExponent + (e : ℤ) - f.leastExponent).toNat = e by omega, Nat.succ_mul]
    omega

theorem nearest_value (m : ℕ) : f.nearest (f.value m) = min m f.infinityBits := by
  rcases Nat.eq_zero_or_pos m with rfl | h
  · simp [nearest]
  have hdiv : f.value m / (2 : ℚ) ^ f.placeExponent m = ((f.significand m : ℕ) : ℤ) := by
    rw [value, mul_div_cancel_right₀ _ (by positivity), Int.cast_natCast]
  simp only [nearest, (f.value_pos h).ne', if_false, f.resultExponent_value h, hdiv,
    roundHalfEven_intCast, Int.toNat_natCast, shiftLeft_place_add_significand]

theorem nearest_le_infinityBits (q : ℚ) : f.nearest q ≤ f.infinityBits := by
  unfold nearest
  split_ifs
  · exact Nat.zero_le _
  · exact min_le_right _ _

/-- The significand that a number rounds to, before the bound at infinity. -/
private theorem significand_bounds {q : ℚ} (hq : 0 < q) :
    0 ≤ roundHalfEven (q / (2 : ℚ) ^ f.resultExponent q) ∧
      roundHalfEven (q / (2 : ℚ) ^ f.resultExponent q) ≤ (2 ^ (f.fractionBits + 1) : ℕ) ∧
      (f.leastExponent < f.resultExponent q →
        ((2 ^ f.fractionBits : ℕ) : ℤ) ≤ roundHalfEven (q / (2 : ℚ) ^ f.resultExponent q)) := by
  have hpos : (0 : ℚ) < (2 : ℚ) ^ f.resultExponent q := by positivity
  obtain ⟨hlow, hhigh⟩ := floorLog2_spec hq
  refine ⟨le_roundHalfEven (by push_cast; positivity), roundHalfEven_le ?_, fun hlt ↦
    le_roundHalfEven ?_⟩
  · rw [div_le_iff₀ hpos]
    push_cast
    rw [← zpow_natCast, ← zpow_add₀ (by norm_num)]
    refine hhigh.le.trans ((zpow_le_zpow_iff_right₀ (by norm_num)).2 ?_)
    rw [resultExponent]
    push_cast
    omega
  · rw [le_div_iff₀ hpos]
    push_cast
    rw [← zpow_natCast, ← zpow_add₀ (by norm_num)]
    refine ((zpow_le_zpow_iff_right₀ (by norm_num)).2 ?_).trans hlow
    rw [resultExponent] at hlt ⊢
    omega

/-- Rounding is monotone. Where the exponents differ, the larger number has a significand of full
length, and the smaller one rounds at most to the next power of two. -/
theorem nearest_mono {q r : ℚ} (hq : 0 ≤ q) (h : q ≤ r) : f.nearest q ≤ f.nearest r := by
  rcases hq.eq_or_lt with rfl | hq
  · simp [nearest]
  have hr : 0 < r := hq.trans_le h
  have hexp : f.resultExponent q ≤ f.resultExponent r :=
    max_le_max (sub_le_sub_right (floorLog2_mono hq h) _) le_rfl
  have hleast : f.leastExponent ≤ f.resultExponent q := le_max_right _ _
  simp only [nearest, hq.ne', hr.ne', if_false, Nat.shiftLeft_eq]
  refine min_le_min ?_ le_rfl
  rcases hexp.eq_or_lt with heq | hlt
  · have hsig : roundHalfEven (q / (2 : ℚ) ^ f.resultExponent q) ≤
        roundHalfEven (r / (2 : ℚ) ^ f.resultExponent q) := roundHalfEven_mono (by gcongr)
    rw [← heq]
    omega
  · obtain ⟨hq0, hq1, -⟩ := f.significand_bounds hq
    obtain ⟨-, -, hr1⟩ := f.significand_bounds hr
    have hr1 := hr1 (by omega)
    obtain ⟨d, hd⟩ : ∃ d : ℕ, f.resultExponent q = f.leastExponent + d :=
      ⟨(f.resultExponent q - f.leastExponent).toNat, by omega⟩
    obtain ⟨e, he⟩ : ∃ e : ℕ, f.resultExponent r = f.leastExponent + d + 1 + e :=
      ⟨(f.resultExponent r - f.resultExponent q - 1).toNat, by omega⟩
    rw [show (f.resultExponent q - f.leastExponent).toNat = d by omega,
      show (f.resultExponent r - f.leastExponent).toNat = d + 1 + e by omega, Nat.add_mul,
      Nat.succ_mul]
    rw [Nat.pow_succ] at hq1
    omega

/-! ## Representable numbers -/

/-- A number that some finite magnitude stands for. -/
def Represents (q : ℚ) : Prop := ∃ m < f.infinityBits, f.value m = q

variable {f}

theorem Represents.nonneg {q : ℚ} (h : f.Represents q) : 0 ≤ q := by
  obtain ⟨m, -, rfl⟩ := h
  exact f.value_nonneg m

theorem Represents.lt_infinity {q : ℚ} (h : f.Represents q) : q < f.value f.infinityBits := by
  obtain ⟨m, hm, rfl⟩ := h
  exact f.value_strictMono hm

theorem Represents.le_value_nearest {b q : ℚ} (hb : f.Represents b) (h : b ≤ q) :
    b ≤ f.value (f.nearest q) := by
  obtain ⟨m, hm, rfl⟩ := hb
  refine f.value_strictMono.monotone ?_
  calc m = f.nearest (f.value m) := by rw [f.nearest_value, min_eq_left hm.le]
    _ ≤ f.nearest q := f.nearest_mono (f.value_nonneg m) h

/-- A representable bound from above passes through rounding, which then is finite. -/
theorem Represents.value_nearest_le {b q : ℚ} (hb : f.Represents b) (hq : 0 ≤ q) (h : q ≤ b) :
    f.nearest q < f.infinityBits ∧ f.value (f.nearest q) ≤ b := by
  obtain ⟨m, hm, rfl⟩ := hb
  have hle : f.nearest q ≤ m := by
    calc f.nearest q ≤ f.nearest (f.value m) := f.nearest_mono hq h
      _ = m := by rw [f.nearest_value, min_eq_left hm.le]
  exact ⟨hle.trans_lt hm, f.value_strictMono.monotone hle⟩

theorem Represents.nearest_eq {q : ℚ} (h : f.Represents q) :
    f.nearest q < f.infinityBits ∧ f.value (f.nearest q) = q := by
  obtain ⟨m, hm, rfl⟩ := h
  rw [f.nearest_value, min_eq_left hm.le]
  exact ⟨hm, rfl⟩

/-- A scaled integer that fits the significand is representable, if its place is not below the least
one and its size is below infinity. -/
theorem represents_scaled {n : ℕ} {e : ℤ} (hn : n < 2 ^ (f.fractionBits + 1))
    (he : f.leastExponent ≤ e) (hsize : (n : ℚ) * (2 : ℚ) ^ e < f.value f.infinityBits) :
    f.Represents ((n : ℚ) * (2 : ℚ) ^ e) := by
  suffices h : ∃ m, f.value m = (n : ℚ) * (2 : ℚ) ^ e by
    obtain ⟨m, hm⟩ := h
    exact ⟨m, f.value_strictMono.lt_iff_lt.1 (hm ▸ hsize), hm⟩
  obtain ⟨d, rfl⟩ : ∃ d : ℕ, e = f.leastExponent + d := ⟨(e - f.leastExponent).toNat, by omega⟩
  clear he hsize
  -- Moving a binary place from the significand to the exponent ends at a leading bit or at the
  -- least exponent.
  induction d generalizing n with
  | zero =>
    rcases Nat.lt_or_ge n (2 ^ f.fractionBits) with h | h
    · exact ⟨n, by rw [f.value_of_lt h, Nat.cast_zero, add_zero]⟩
    · obtain ⟨r, rfl⟩ := Nat.exists_eq_add_of_le h
      have hr : r < 2 ^ f.fractionBits := by rw [Nat.pow_succ] at hn; omega
      exact ⟨(0 + 1) * 2 ^ f.fractionBits + r, f.value_of_normal 0 hr⟩
  | succ d ih =>
    rcases Nat.lt_or_ge n (2 ^ f.fractionBits) with h | h
    · obtain ⟨m, hm⟩ := ih (show 2 * n < _ by rw [Nat.pow_succ]; omega)
      refine ⟨m, hm.trans ?_⟩
      push_cast
      rw [← add_assoc, zpow_add_one₀ (by norm_num)]
      ring
    · obtain ⟨r, rfl⟩ := Nat.exists_eq_add_of_le h
      have hr : r < 2 ^ f.fractionBits := by rw [Nat.pow_succ] at hn; omega
      exact ⟨(d + 1 + 1) * 2 ^ f.fractionBits + r, f.value_of_normal (d + 1) hr⟩

theorem represents_of_exponent_le {n : ℕ} {e : ℤ} (hp : 1 < f.exponentBits)
    (hf : 0 < f.precision) (hn : n < 2 ^ f.precision) (hlow : f.leastExponent ≤ e)
    (hhigh : e + f.precision ≤ (2 ^ (f.exponentBits - 1) : ℕ)) :
    f.Represents ((n : ℚ) * (2 : ℚ) ^ e) := by
  have hdigits : f.fractionBits + 1 = f.precision := Nat.sub_add_cancel hf
  refine represents_scaled (by rwa [hdigits]) hlow ?_
  rw [value_infinityBits _ hp hf]
  calc (n : ℚ) * (2 : ℚ) ^ e < (2 : ℚ) ^ (f.precision : ℤ) * (2 : ℚ) ^ e := by
        gcongr
        exact_mod_cast hn
    _ = (2 : ℚ) ^ (f.precision + e) := (zpow_add₀ (by norm_num) _ _).symm
    _ ≤ (2 : ℚ) ^ ((2 ^ (f.exponentBits - 1) : ℕ) : ℤ) :=
        (zpow_le_zpow_iff_right₀ (by norm_num)).2 (by omega)
    _ = (2 : ℚ) ^ (2 ^ (f.exponentBits - 1)) := zpow_natCast _ _

end Format

end QuantizedGemm
