import Mathlib.Data.Nat.Factorial.Basic
import Mathlib.Tactic.SplitIfs
import QuantizedGemm.Proofs.Bytes
import QuantizedGemm.Proofs.Checked
import QuantizedGemm.Proofs.Outcome
import QuantizedGemm.Random.Draw

/-!
# What is drawn

A drawing `Yields` a property if every result has it, from whatever state of the source, and if the
only way to fail is to run out of attempts. The property is kept by sequencing, so it is known of a
whole drawing once it is known of its steps.

## Numbers

The upper half of the product of a word with `r` is below `r`. A carry from the next word may add
one to it. This never leaves the range, since the product with the greatest word, whose upper half
is `r - 1`, has a lower half that is too small for a carry (`yields_drawBelow`).

## Permutations

A shuffle is a sequence of swaps, and a swap of two positions in the list permutes it. The positions
are in the list because the indices are drawn below 1, 2, 3, …. Where one number holds several of
them, what is left of it is below the product of the bounds that are left (`IndexSupply.InRange`),
and dividing by the next of these bounds keeps it so.

## Main statements

* `yields_drawVaried`: drawn bytes have the length that was asked for.
* `yields_shuffle`: a shuffled list is a permutation, and no position is out of bounds.
-/

namespace QuantizedGemm

namespace Draw

variable {σ α β : Type}

/-- Every result has the property, and the only failure is running out of attempts. -/
def Yields (x : Draw σ α) (P : α → Prop) : Prop :=
  ∀ s, match x.run s with
    | .ok (a, _) => P a
    | .error e => e = .fault .exhausted

variable {x : Draw σ α} {P : α → Prop} {R : β → Prop}

theorem Yields.of_run_eq_ok (h : x.Yields P) {s s' : σ} {a : α} (hrun : x.run s = .ok (a, s')) :
    P a := by
  have := h s
  rwa [hrun] at this

theorem Yields.of_run_eq_error (h : x.Yields P) {s : σ} {e : Failure} (hrun : x.run s = .error e) :
    e = .fault .exhausted := by
  have := h s
  rwa [hrun] at this

theorem run_bind_eq_ok_iff {f : α → Draw σ β} {s : σ} {r : β × σ} :
    (x >>= f).run s = .ok r ↔ ∃ a s', x.run s = .ok (a, s') ∧ (f a).run s' = .ok r := by
  rw [StateT.run_bind, bind_eq_ok_iff, Prod.exists]

theorem run_bind_eq_error_iff {f : α → Draw σ β} {s : σ} {e : Failure} :
    (x >>= f).run s = .error e ↔
      x.run s = .error e ∨ ∃ a s', x.run s = .ok (a, s') ∧ (f a).run s' = .error e := by
  rw [StateT.run_bind, bind_eq_error_iff, Prod.exists]

theorem yields_pure {a : α} (h : P a) : (pure a : Draw σ α).Yields P := fun _ ↦ h

theorem yields_exhausted : (throw (.fault .exhausted) : Draw σ α).Yields P := fun _ ↦ rfl

theorem Yields.bind {f : α → Draw σ β} (hx : x.Yields P) (hf : ∀ a, P a → (f a).Yields R) :
    (x >>= f).Yields R := by
  intro s
  rw [StateT.run_bind]
  cases hrun : x.run s with
  | error e => exact hx.of_run_eq_error hrun
  | ok r => exact hf r.1 (hx.of_run_eq_ok hrun) r.2

theorem Yields.mapM {f : β → Draw σ α} {l : List β} (h : ∀ b ∈ l, (f b).Yields P) :
    (l.mapM f).Yields fun as ↦ as.length = l.length ∧ ∀ a ∈ as, P a := by
  induction l with
  | nil => exact yields_pure ⟨rfl, nofun⟩
  | cons b l ih =>
    rw [List.mapM_cons]
    refine (h b List.mem_cons_self).bind fun a ha ↦ ?_
    refine (ih fun c hc ↦ h c (List.mem_cons_of_mem b hc)).bind fun as has ↦ yields_pure ?_
    refine ⟨congrArg (· + 1) has.1, fun c hc ↦ ?_⟩
    rcases List.mem_cons.mp hc with rfl | hc
    · exact ha
    · exact has.2 c hc

theorem Yields.foldlM_range {f : α → ℕ → Draw σ α} {I : ℕ → α → Prop} {n : ℕ} {a : α} (ha : I 0 a)
    (h : ∀ i < n, ∀ a, I i a → (f a i).Yields (I (i + 1))) :
    ((List.range n).foldlM f a).Yields (I n) := by
  induction n with
  | zero => exact yields_pure ha
  | succ n ih =>
    rw [foldlM_range_succ]
    exact (ih fun i hi ↦ h i (Nat.lt_succ_of_lt hi)).bind (h n n.lt_succ_self)

end Draw

open Draw

variable {σ : Type} [WordSource σ]

/-! ## Bytes -/

theorem yields_drawWord : (drawWord : Draw σ UInt32).Yields fun _ ↦ True := fun _ ↦ trivial

theorem le_four_mul_divideUp (n : ℕ) : n ≤ divideUp n 4 * 4 := by
  rw [divideUp]
  omega

theorem length_flatMap_littleEndian (words : List UInt32) :
    (words.flatMap fun w ↦ littleEndian 4 w.toNat).length = words.length * 4 := by
  induction words with
  | nil => rfl
  | cons w words ih =>
    rw [List.flatMap_cons, List.length_append, length_littleEndian, ih, List.length_cons]
    omega

theorem yields_drawBytes (count : ℕ) :
    (drawBytes count : Draw σ Bytes).Yields fun b ↦ b.size = count := by
  refine (Yields.mapM fun _ _ ↦ yields_drawWord).bind fun words hwords ↦ yields_pure ?_
  have hlength := hwords.1
  rw [List.length_range] at hlength
  rw [List.size_toArray, List.length_take, length_flatMap_littleEndian, hlength]
  exact Nat.min_eq_left (le_four_mul_divideUp count)

/-- However often bytes are drawn again, those that are kept have the length asked for. -/
theorem yields_drawVaried (attempts count : ℕ) :
    (drawVaried attempts count : Draw σ Bytes).Yields fun b ↦ b.size = count := by
  induction attempts with
  | zero => exact yields_exhausted
  | succ attempts ih =>
    refine (yields_drawBytes count).bind fun b hb ↦ ?_
    split_ifs
    · exact yields_pure hb
    · exact ih

/-! ## Numbers -/

theorem wordRange_eq : wordRange = 2 ^ 32 := rfl

theorem yields_drawWords (count : ℕ) :
    (drawWords count : Draw σ ℕ).Yields (· < 2 ^ (32 * count)) := by
  refine (Yields.mapM fun _ _ ↦ yields_drawWord).bind fun words hwords ↦ yields_pure ?_
  obtain ⟨hlength, -⟩ := hwords
  rw [List.length_range] at hlength
  subst hlength
  induction words with
  | nil => exact Nat.one_pos
  | cons w words ih =>
    have hw := w.toNat_lt
    have hrest := Nat.mul_le_mul_left wordRange (Nat.succ_le_of_lt ih)
    rw [Nat.mul_succ] at hrest
    rw [List.foldr_cons, List.length_cons, Nat.mul_succ, pow_add, mul_comm (2 ^ _), ← wordRange_eq]
    exact (Nat.add_lt_add_right hw _).trans_le ((Nat.add_comm ..).trans_le hrest)

/-- The upper half of a product, with a carry that the lower half makes possible. -/
theorem mul_div_lt_of_carry {size range word : ℕ} (hrange : 0 < range) (hle : range ≤ size)
    (hword : word < size) :
    word * range / size < range ∧
      (size - range < word * range % size → word * range / size + 1 < range) := by
  have hsize : 0 < size := hrange.trans_le hle
  have hmul : word * range ≤ (size - 1) * range := Nat.mul_le_mul_right _ (by omega)
  have hdiv := Nat.div_add_mod' (word * range) size
  have hlt : word * range / size < range := by
    rw [Nat.div_lt_iff_lt_mul hsize, mul_comm range]
    exact Nat.mul_lt_mul_of_pos_right hword hrange
  refine ⟨hlt, fun hlow ↦ lt_of_le_of_ne hlt fun htop ↦ ?_⟩
  -- the lower half would be that of the greatest word
  have hhigh : word * range / size * size = range * size - size := by
    rw [Nat.eq_sub_of_add_eq htop, Nat.sub_mul, one_mul]
  have hmax : (size - 1) * range = range * size - range := by
    rw [Nat.sub_mul, one_mul, mul_comm]
  have hge : size ≤ range * size := Nat.le_mul_of_pos_left size hrange
  omega

theorem yields_drawBelow {range : ℕ} (h : 0 < range) :
    (drawBelow range : Draw σ ℕ).Yields (· < range) := by
  have hsize : 1 <<< (32 * (range.log2 / 32 + 1)) = 2 ^ (32 * (range.log2 / 32 + 1)) :=
    Nat.one_shiftLeft _
  have hle : range ≤ 2 ^ (32 * (range.log2 / 32 + 1)) :=
    Nat.lt_log2_self.le.trans (Nat.pow_le_pow_right (by norm_num) (by omega))
  refine (yields_drawWords _).bind fun word hword ↦ ?_
  obtain ⟨hhigh, hcarry⟩ := mul_div_lt_of_carry h hle hword
  simp only [hsize]
  split_ifs with hlow
  · refine (yields_drawWords _).bind fun word' _ ↦ yields_pure ?_
    split_ifs
    · exact hcarry hlow
    · exact hhigh
  · exact yields_pure hhigh

/-! ## Permutations -/

/-- What is left of a number is below the product of the bounds that it is left for. -/
def IndexSupply.InRange (s : IndexSupply) : Prop :=
  s.remaining = 0 ∨ s.chunk < (s.count + 1).ascFactorial s.remaining

theorem growProduct_eq (steps first count : ℕ) :
    ∃ count', growProduct steps (first.ascFactorial count) (first + count) =
      (first.ascFactorial count', first + count') ∧ count ≤ count' := by
  induction steps generalizing count with
  | zero => exact ⟨count, rfl, le_rfl⟩
  | succ steps ih =>
    rw [growProduct]
    split_ifs
    · obtain ⟨count', hgrown, hle⟩ := ih (count + 1)
      rw [Nat.ascFactorial_succ, mul_comm] at hgrown
      exact ⟨count', hgrown, by omega⟩
    · exact ⟨count, rfl, le_rfl⟩

theorem ascFactorial_succ_left (n k : ℕ) :
    n.ascFactorial (k + 1) = n * (n + 1).ascFactorial k := by
  rw [Nat.add_comm k, ← Nat.ascFactorial_mul_ascFactorial, Nat.ascFactorial_succ,
    Nat.ascFactorial_zero, Nat.add_zero, Nat.mul_one]

theorem IndexSupply.yields_refill {s : IndexSupply} (h : s.InRange) :
    (s.refill : Draw σ IndexSupply).Yields fun s' ↦ s'.count = s.count ∧ 0 < s'.remaining ∧
      s'.chunk < (s.count + 1).ascFactorial s'.remaining := by
  unfold refill
  split_ifs with hempty
  · obtain ⟨count, hgrown, hcount⟩ := growProduct_eq 32 (s.count + 1) 1
    rw [ascFactorial_succ_left, Nat.ascFactorial_zero, Nat.mul_one] at hgrown
    simp only [hgrown, Nat.add_sub_cancel_left]
    exact (yields_drawBelow (Nat.ascFactorial_pos _ _)).bind fun _ hchunk ↦
      yields_pure ⟨rfl, hcount, hchunk⟩
  · exact yields_pure ⟨rfl, Nat.pos_of_ne_zero hempty, h.resolve_left hempty⟩

theorem IndexSupply.yields_next {s : IndexSupply} (h : s.InRange) :
    (s.next : Draw σ (ℕ × IndexSupply)).Yields fun r ↦
      r.1 < s.count + 1 ∧ r.2.count = s.count + 1 ∧ r.2.InRange := by
  refine (yields_refill h).bind fun s' hs' ↦ ?_
  obtain ⟨hcount, hpos, hchunk⟩ := hs'
  dsimp only
  rw [hcount]
  obtain ⟨rest, hrest⟩ := Nat.exists_eq_add_one.mpr hpos
  rw [hrest, ascFactorial_succ_left] at hchunk
  split_ifs with hlast
  · obtain rfl : rest = 0 := by omega
    exact yields_pure ⟨by simpa using hchunk, rfl, Or.inl rfl⟩
  · refine yields_pure ⟨Nat.mod_lt _ (Nat.succ_pos _), rfl, Or.inr ?_⟩
    rw [hrest, Nat.add_sub_cancel]
    exact Nat.div_lt_of_lt_mul hchunk

omit [WordSource σ] in
theorem yields_swapItems {α : Type} {items items' : Array α} (hperm : items'.Perm items) {i j : ℕ}
    (hi : i < items.size) (hj : j < items.size) :
    (swapItems items' i j : Draw σ (Array α)).Yields fun swapped ↦ swapped.Perm items := by
  have hsize := hperm.size_eq
  rw [swapItems, if_pos ⟨hsize ▸ hi, hsize ▸ hj⟩, Array.swapIfInBounds_def,
    dif_pos (hsize ▸ hi), dif_pos (hsize ▸ hj)]
  exact yields_pure ((Array.swap_perm _ _).trans hperm)

theorem yields_shuffleItems {α : Type} (items : Array α) :
    (shuffleItems items : Draw σ (Array α)).Yields fun shuffled ↦ shuffled.Perm items := by
  let I : ℕ → Array α × IndexSupply → Prop := fun i p ↦
    p.1.Perm items ∧ p.2.count = i ∧ p.2.InRange
  have hstart : I 0 (items, ⟨0, 0, 1⟩) := ⟨.rfl, rfl, Or.inr Nat.one_pos⟩
  refine (Yields.foldlM_range (I := I) hstart fun i hi p hp ↦ ?_).bind fun p hp ↦
    yields_pure hp.1
  obtain ⟨hperm, rfl, hrange⟩ := hp
  refine (IndexSupply.yields_next hrange).bind fun next hnext ↦ ?_
  obtain ⟨hindex, hcount, hrange'⟩ := hnext
  exact (yields_swapItems hperm hi (by omega)).bind fun _ hswapped ↦
    yields_pure ⟨hswapped, hcount, hrange'⟩

theorem yields_shuffleLong {α : Type} (items : Array α) :
    (shuffleLong items : Draw σ (Array α)).Yields fun shuffled ↦ shuffled.Perm items := by
  refine Yields.foldlM_range (I := fun _ (items' : Array α) ↦ items'.Perm items) .rfl
    fun i hi items' hp ↦ ?_
  exact (yields_drawBelow i.succ_pos).bind fun index hindex ↦
    yields_swapItems hp hi (by omega)

/-- Swaps only move items, so that any sequence of them permutes. -/
theorem yields_shuffle {α : Type} (items : Array α) :
    (shuffle items : Draw σ (Array α)).Yields fun shuffled ↦ shuffled.Perm items := by
  unfold shuffle
  split_ifs
  · exact yields_pure .rfl
  · exact yields_shuffleItems items
  · exact yields_shuffleLong items

end QuantizedGemm
