import Mathlib.Algebra.Order.Field.Power
import Mathlib.Algebra.Order.Floor.Ring
import Mathlib.Data.Rat.Floor
import Mathlib.Tactic.FieldSimp
import Mathlib.Tactic.Linarith
import Mathlib.Tactic.NormNum
import Mathlib.Tactic.Positivity
import Mathlib.Tactic.Ring
import QuantizedGemm.Binary.Arithmetic

/-!
# Scaled integers round like rational numbers

Sums and products are computed on integers times powers of two. Main statement: the magnitude found
for such a number is the one nearest to it (`nearestScaled_eq`), so that every operation on finite
words is the exact operation on `ℚ`, rounded once.

## Two roundings that agree

On integers, rounding is a shift to the right that looks at the bits it drops (`shiftRightEven`). On
`ℚ` it is the nearest integer, with ties to even (`roundHalfEven`). The two meet in a quotient and a
remainder: the bits that are dropped are the remainder, and comparing it with half of the divisor is
comparing a fraction with one half. The exponent is found by counting bits on one side and by
comparing with powers of two on the other (`floorLog2_eq`).
-/

namespace QuantizedGemm

theorem shiftRightEven_eq (n k : ℕ) :
    (shiftRightEven n k : ℤ) = roundHalfEven ((n : ℚ) / (2 : ℚ) ^ k) := by
  have hpos : 0 < 2 ^ k := by positivity
  have hposQ : (0 : ℚ) < 2 ^ k := by positivity
  have hdecomp : 2 ^ k * (n / 2 ^ k) + n % 2 ^ k = n := Nat.div_add_mod n (2 ^ k)
  have hlt : n % 2 ^ k < 2 ^ k := Nat.mod_lt n hpos
  have hfloor : Rat.floor ((n : ℚ) / 2 ^ k) = ((n / 2 ^ k : ℕ) : ℤ) := by
    change ⌊(n : ℚ) / 2 ^ k⌋ = _
    have := Rat.floor_natCast_div_natCast n (2 ^ k)
    push_cast at this ⊢
    exact this
  have hrest : (n : ℚ) / 2 ^ k - ((n / 2 ^ k : ℕ) : ℚ) = ((n % 2 ^ k : ℕ) : ℚ) / 2 ^ k := by
    have h : (n : ℚ) = 2 ^ k * ((n / 2 ^ k : ℕ) : ℚ) + ((n % 2 ^ k : ℕ) : ℚ) := by
      exact_mod_cast hdecomp.symm
    rw [div_sub' hposQ.ne', div_left_inj' hposQ.ne']
    linarith
  have hsub : n - n / 2 ^ k * 2 ^ k = n % 2 ^ k := by rw [Nat.mul_comm]; omega
  have hbelow : ((n % 2 ^ k : ℕ) : ℚ) / 2 ^ k < 1 / 2 ↔ 2 * (n % 2 ^ k) < 2 ^ k := by
    rw [div_lt_div_iff₀ hposQ (by norm_num)]
    constructor <;> intro h
    · exact_mod_cast (show (2 : ℚ) * ((n % 2 ^ k : ℕ) : ℚ) < 2 ^ k by linarith)
    · have : (2 : ℚ) * ((n % 2 ^ k : ℕ) : ℚ) < 2 ^ k := by exact_mod_cast h
      linarith
  have habove : 1 / 2 < ((n % 2 ^ k : ℕ) : ℚ) / 2 ^ k ↔ 2 ^ k < 2 * (n % 2 ^ k) := by
    rw [div_lt_div_iff₀ (by norm_num) hposQ]
    constructor <;> intro h
    · exact_mod_cast (show (2 : ℚ) ^ k < 2 * ((n % 2 ^ k : ℕ) : ℚ) by linarith)
    · have : (2 : ℚ) ^ k < 2 * ((n % 2 ^ k : ℕ) : ℚ) := by exact_mod_cast h
      linarith
  have hcast : (((n / 2 ^ k : ℕ) : ℤ) : ℚ) = ((n / 2 ^ k : ℕ) : ℚ) := Int.cast_natCast _
  simp only [shiftRightEven, roundHalfEven, hfloor, hcast, hrest, hbelow, habove,
    Nat.shiftRight_eq_div_pow, Nat.shiftLeft_eq, one_mul, hsub]
  split_ifs <;> omega

theorem floorLog2_eq {q : ℚ} {e : ℤ} (hlow : (2 : ℚ) ^ e ≤ q) (hhigh : q < (2 : ℚ) ^ (e + 1)) :
    floorLog2 q = e := by
  have hq : 0 < q := lt_of_lt_of_le (by positivity) hlow
  have hnum : 0 < q.num := Rat.num_pos.2 hq
  have hden : 0 < q.den := q.den_pos
  set a := q.num.natAbs.log2 with ha
  set b := q.den.log2 with hb
  have hnum' : (q.num.natAbs : ℚ) = q.num := by
    rw [← Int.cast_natCast, Int.natCast_natAbs, abs_of_pos hnum]
  have hqdiv : q = (q.num.natAbs : ℚ) / q.den := by
    rw [hnum']
    exact (Rat.num_div_den q).symm
  have ha1 : (2 : ℚ) ^ a ≤ q.num.natAbs := by
    exact_mod_cast Nat.log2_self_le (by omega)
  have ha2 : (q.num.natAbs : ℚ) < 2 ^ (a + 1) := by exact_mod_cast Nat.lt_log2_self
  have hb1 : (2 : ℚ) ^ b ≤ q.den := by exact_mod_cast Nat.log2_self_le (by omega)
  have hb2 : (q.den : ℚ) < 2 ^ (b + 1) := by exact_mod_cast Nat.lt_log2_self
  have hdenQ : (0 : ℚ) < q.den := by exact_mod_cast hden
  have hupper : q < (2 : ℚ) ^ ((a : ℤ) - b + 1) := by
    rw [hqdiv, div_lt_iff₀ hdenQ]
    calc (q.num.natAbs : ℚ) < 2 ^ (a + 1) := ha2
      _ = (2 : ℚ) ^ ((a : ℤ) - b + 1) * 2 ^ b := by
        rw [← zpow_natCast, ← zpow_natCast, ← zpow_add₀ (by norm_num)]
        congr 1
        push_cast
        ring
      _ ≤ (2 : ℚ) ^ ((a : ℤ) - b + 1) * q.den := by gcongr
  have hlower : (2 : ℚ) ^ ((a : ℤ) - b - 1) < q := by
    rw [hqdiv, lt_div_iff₀ hdenQ]
    calc (2 : ℚ) ^ ((a : ℤ) - b - 1) * q.den < (2 : ℚ) ^ ((a : ℤ) - b - 1) * 2 ^ (b + 1) := by
          gcongr
      _ = 2 ^ a := by
        rw [← zpow_natCast, ← zpow_natCast, ← zpow_add₀ (by norm_num)]
        congr 1
        push_cast
        ring
      _ ≤ (q.num.natAbs : ℚ) := ha1
  have h1 : e < (a : ℤ) - b + 1 :=
    (zpow_lt_zpow_iff_right₀ (by norm_num : (1 : ℚ) < 2)).1 (hlow.trans_lt hupper)
  have h2 : (a : ℤ) - b - 1 < e + 1 :=
    (zpow_lt_zpow_iff_right₀ (by norm_num : (1 : ℚ) < 2)).1 (hlower.trans hhigh)
  simp only [floorLog2, ← ha, ← hb]
  split_ifs with h
  · have h3 : (a : ℤ) - b < e + 1 :=
      (zpow_lt_zpow_iff_right₀ (by norm_num : (1 : ℚ) < 2)).1 (lt_of_le_of_lt h hhigh)
    omega
  · have h3 : e < (a : ℤ) - b :=
      (zpow_lt_zpow_iff_right₀ (by norm_num : (1 : ℚ) < 2)).1 (lt_of_le_of_lt hlow (not_le.1 h))
    omega

theorem floorLog2_scaled {n : ℕ} (hn : n ≠ 0) (e : ℤ) :
    floorLog2 ((n : ℚ) * (2 : ℚ) ^ e) = (n.log2 : ℤ) + e := by
  have hpos : (0 : ℚ) < (2 : ℚ) ^ e := by positivity
  have h1 : (2 : ℚ) ^ n.log2 ≤ n := by exact_mod_cast Nat.log2_self_le hn
  have h2 : (n : ℚ) < 2 ^ (n.log2 + 1) := by exact_mod_cast Nat.lt_log2_self
  apply floorLog2_eq
  · rw [zpow_add₀ (by norm_num), zpow_natCast]
    gcongr
  · rw [show (n.log2 : ℤ) + e + 1 = ((n.log2 + 1 : ℕ) : ℤ) + e by push_cast; ring,
      zpow_add₀ (by norm_num), zpow_natCast]
    gcongr

theorem roundHalfEven_intCast (n : ℤ) : roundHalfEven (n : ℚ) = n := by
  have h : Rat.floor (n : ℚ) = n := by
    change ⌊(n : ℚ)⌋ = n
    exact Int.floor_intCast n
  simp [roundHalfEven, h]

namespace Format

/-- Rounding a scaled integer is rounding the rational number that it stands for. -/
theorem nearestScaled_eq (f : Format) (n : ℕ) (e : ℤ) :
    f.nearestScaled n e = f.nearest ((n : ℚ) * (2 : ℚ) ^ e) := by
  by_cases hn : n = 0
  · simp [nearestScaled, nearest, hn]
  have hq : (n : ℚ) * (2 : ℚ) ^ e ≠ 0 := by positivity
  have hplace : f.resultExponent ((n : ℚ) * (2 : ℚ) ^ e) =
      max ((n.log2 : ℤ) + e - (f.fractionBits : ℤ)) f.leastExponent := by
    rw [resultExponent, floorLog2_scaled hn]
  simp only [nearestScaled, nearest, hn, hq, if_false, hplace]
  generalize max ((n.log2 : ℤ) + e - (f.fractionBits : ℤ)) f.leastExponent = place
  have hdiv : (n : ℚ) * (2 : ℚ) ^ e / (2 : ℚ) ^ place = (n : ℚ) * (2 : ℚ) ^ (e - place) := by
    rw [zpow_sub₀ (by norm_num), mul_div_assoc]
  congr 2
  rw [hdiv]
  split_ifs with h
  · have hshift : (n : ℚ) * (2 : ℚ) ^ (e - place) = ((n <<< (e - place).toNat : ℕ) : ℤ) := by
      rw [Nat.shiftLeft_eq]
      push_cast
      rw [← zpow_natCast, Int.toNat_of_nonneg (by omega)]
    rw [hshift, roundHalfEven_intCast, Int.toNat_natCast]
  · have hshift : (n : ℚ) * (2 : ℚ) ^ (e - place) = (n : ℚ) / (2 : ℚ) ^ (place - e).toNat := by
      rw [← zpow_natCast, Int.toNat_of_nonneg (by omega), div_eq_mul_inv, ← zpow_neg, neg_sub]
    rw [hshift, ← shiftRightEven_eq, Int.toNat_natCast]

end Format

end QuantizedGemm
