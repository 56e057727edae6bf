import Mathlib.NumberTheory.Bertrand
import QuantizedGemm.Arith

/-!
# The least prime not below a number

Trial division looks at the candidates whose square is at most the number. That decides primality,
since the least divisor of a composite number is one of them (`isPrime_iff`).

## A search without a bound

The search for the next prime tests an odd number, and adds two until the test succeeds. Written
without a bound on its length this is the relation `SearchEnds`: it relates a start to a prime only
if the search from there comes to an end. Nothing in the steps themselves gets smaller. What ends
the search is Bertrand's postulate, which puts a prime between `n` and `2 * n`, and what makes its
result the least prime is that all primes above two are odd.
-/

namespace QuantizedGemm

/-! ## Trial division -/

theorem noDivisorFrom_iff {n d : ℕ} :
    noDivisorFrom n d = true ↔ ∀ e, d ≤ e → e * e ≤ n → ¬e ∣ n := by
  fun_induction noDivisorFrom n d with
  | case1 d hle hmod =>
    -- `d` itself divides
    simp only [Bool.false_eq_true, false_iff]
    intro h
    exact h d le_rfl hle (Nat.dvd_of_mod_eq_zero hmod)
  | case2 d hle hmod ih =>
    rw [ih]
    constructor
    · intro h e hde he hdvd
      rcases hde.eq_or_lt with rfl | hlt
      · exact hmod (Nat.mod_eq_zero_of_dvd hdvd)
      · exact h e hlt he hdvd
    · intro h e hde he
      exact h e (Nat.le_of_succ_le hde) he
  | case3 d hlt =>
    -- the candidates from `d` on are too large
    simp only [true_iff]
    intro e hde he
    exact absurd ((Nat.mul_self_le_mul_self hde).trans he) hlt

@[simp] theorem isPrime_iff {n : ℕ} : isPrime n = true ↔ n.Prime := by
  rw [isPrime, Bool.and_eq_true, decide_eq_true_iff, noDivisorFrom_iff, Nat.prime_def_le_sqrt]
  simp only [Nat.le_sqrt]

/-! ## The search -/

/-- The first odd number that is not below `n`. -/
def firstOdd (n : ℕ) : ℕ := if n % 2 = 0 then n + 1 else n

theorem firstOdd_mod_two (n : ℕ) : firstOdd n % 2 = 1 := by
  unfold firstOdd
  split <;> omega

theorem le_firstOdd (n : ℕ) : n ≤ firstOdd n := by
  unfold firstOdd
  split <;> omega

/-- Every odd number that is not below `n` comes up in steps of two. -/
theorem exists_eq_firstOdd_add {n p : ℕ} (hle : n ≤ p) (hodd : p % 2 = 1) :
    ∃ i, p = firstOdd n + 2 * i := by
  refine ⟨(p - firstOdd n) / 2, ?_⟩
  unfold firstOdd
  split <;> omega

/-- The search that starts at a number ends at another one. -/
inductive SearchEnds : ℕ → ℕ → Prop where
  | found {n : ℕ} (h : isPrime n = true) : SearchEnds n n
  | step {n p : ℕ} (h : isPrime n = false) (rest : SearchEnds (n + 2) p) : SearchEnds n p

/-- A search with a prime among its first `steps` candidates ends, and in its answer. -/
theorem searchEnds_primeFrom {steps n i : ℕ} (hi : i < steps) (hprime : (n + 2 * i).Prime) :
    SearchEnds n (primeFrom steps n) := by
  induction steps generalizing n i with
  | zero => exact absurd hi i.not_lt_zero
  | succ steps ih =>
    rw [primeFrom]
    by_cases hn : isPrime n = true
    · rw [if_pos hn]
      exact .found hn
    · rw [if_neg hn]
      apply SearchEnds.step (Bool.eq_false_of_not_eq_true hn)
      -- the prime is not the first candidate, and comes up one step earlier in the rest
      cases i with
      | zero => exact absurd (isPrime_iff.mpr hprime) hn
      | succ i =>
        apply ih (Nat.lt_of_succ_lt_succ hi)
        rwa [show n + 2 + 2 * i = n + 2 * (i + 1) by omega]

namespace SearchEnds

variable {n p : ℕ}

theorem prime (h : SearchEnds n p) : p.Prime := by
  induction h with
  | found h => exact isPrime_iff.mp h
  | step _ _ ih => exact ih

theorem le (h : SearchEnds n p) : n ≤ p := by
  induction h with
  | found _ => exact le_rfl
  | step _ _ ih => exact (Nat.le_add_right _ 2).trans ih

/-- A search that starts at an odd number above two passes over no prime. -/
theorem minimal (h : SearchEnds n p) (hn : 2 < n) (hodd : n % 2 = 1) {q : ℕ} (hq : q.Prime)
    (hle : n ≤ q) : p ≤ q := by
  induction h with
  | found _ => exact hle
  | @step n p hnot _ ih =>
    apply ih (by omega) (by omega)
    -- `q` is odd, and it is not the candidate that was refused
    have hne : n ≠ q := by
      intro heq
      exact Bool.eq_false_iff.mp hnot (isPrime_iff.mpr (heq ▸ hq))
    have hqodd := hq.eq_two_or_odd
    omega

theorem unique {p' : ℕ} (h : SearchEnds n p) (h' : SearchEnds n p') : p = p' := by
  induction h with
  | found h =>
    cases h' with
    | found _ => rfl
    | step hnot _ => exact absurd h (Bool.eq_false_iff.mp hnot)
  | step hnot _ ih =>
    cases h' with
    | found h => exact absurd h (Bool.eq_false_iff.mp hnot)
    | step _ rest => exact ih rest

end SearchEnds

/-! ## The next prime -/

theorem exists_prime_candidate {n : ℕ} (hn : 2 < n) : ∃ i < n, (firstOdd n + 2 * i).Prime := by
  obtain ⟨p, hp, hlt, hle⟩ := Nat.exists_prime_lt_and_le_two_mul n (by omega)
  have hodd := hp.eq_two_or_odd
  obtain ⟨i, rfl⟩ := exists_eq_firstOdd_add hlt.le (by omega)
  have hfirst := le_firstOdd n
  exact ⟨i, by omega, hp⟩

/-- Above two, the next prime is where the search from the first odd number ends. -/
theorem searchEnds_nextPrime {n : ℕ} (hn : 2 < n) : SearchEnds (firstOdd n) (nextPrime n) := by
  obtain ⟨i, hi, hprime⟩ := exists_prime_candidate hn
  rw [nextPrime, if_neg (by omega)]
  exact searchEnds_primeFrom hi hprime

theorem nextPrime_of_le {n : ℕ} (hn : n ≤ 2) : nextPrime n = 2 := if_pos hn

theorem prime_nextPrime (n : ℕ) : (nextPrime n).Prime := by
  by_cases hn : n ≤ 2
  · rw [nextPrime_of_le hn]
    exact Nat.prime_two
  · exact (searchEnds_nextPrime (by omega)).prime

theorem le_nextPrime (n : ℕ) : n ≤ nextPrime n := by
  by_cases hn : n ≤ 2
  · rwa [nextPrime_of_le hn]
  · exact (le_firstOdd n).trans (searchEnds_nextPrime (by omega)).le

theorem nextPrime_le {n p : ℕ} (hp : p.Prime) (hle : n ≤ p) : nextPrime n ≤ p := by
  by_cases hn : n ≤ 2
  · rw [nextPrime_of_le hn]
    exact hp.two_le
  · have hodd := hp.eq_two_or_odd
    have hfirst := le_firstOdd n
    obtain ⟨i, rfl⟩ := exists_eq_firstOdd_add hle (by omega)
    exact (searchEnds_nextPrime (by omega)).minimal (by omega) (firstOdd_mod_two n) hp (by omega)

/-- **The next prime is the least prime not below a number.** Up to two it is two. From there on it
is where the search by twos ends, and the only place where it does. The search has every prime not
below the number among its candidates, and tests them by trial division up to the square root. -/
theorem nextPrime_isLeast (n : ℕ) :
    IsLeast {p | n ≤ p ∧ p.Prime} (nextPrime n) ∧
    (n ≤ 2 ∧ nextPrime n = 2 ∨ 2 < n ∧ (∀ p, SearchEnds (firstOdd n) p ↔ p = nextPrime n) ∧
      ∀ p, p.Prime → n ≤ p → ∃ i, p = firstOdd n + 2 * i) ∧
    (isPrime n = true ↔ 2 ≤ n ∧ ∀ d, 1 < d → d < n → ¬d ∣ n) := by
  refine ⟨⟨⟨le_nextPrime n, prime_nextPrime n⟩, fun p hp ↦ nextPrime_le hp.2 hp.1⟩, ?_,
    isPrime_iff.trans Nat.prime_def_lt'⟩
  by_cases hn : n ≤ 2
  · exact .inl ⟨hn, nextPrime_of_le hn⟩
  · have hends : SearchEnds (firstOdd n) (nextPrime n) := searchEnds_nextPrime (by omega)
    refine .inr ⟨by omega, fun p ↦ ⟨fun h ↦ h.unique hends, fun h ↦ h ▸ hends⟩, ?_⟩
    intro p hp hle
    have hodd := hp.eq_two_or_odd
    exact exists_eq_firstOdd_add hle (by omega)

end QuantizedGemm
