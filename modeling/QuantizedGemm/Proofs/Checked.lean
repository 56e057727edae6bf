import QuantizedGemm.Proofs.Outcome
import QuantizedGemm.Proofs.WrappingSum

/-!
# Checked operations and the values they stand for

A checked computation stands for a value: the one that the same operations have where nothing is
checked. Either it gives this value or it is a fault. What a proof about such a computation needs is
the value, and when there is none.

## How a computation relates to its value

Two relations say so. `OverflowsUnless fits x a` is exact: the computation `x` gives `a` where
`fits` holds and overflows where it does not. `UnlessOverflow risk x a` only names a risk without
which `x` gives `a`, which is enough where the exact condition would be a long list of bounds. Both
are closed under sequencing and under loops, so that they are proved along the recursion of the
definitions.

## Loops

A loop whose every step succeeds and keeps an invariant succeeds (`foldlM_range_of_step`). This is
how a reduction is told from its steps.

A table that is written entry by entry, in whatever order, is told from what is written where
(`Fills`). All writes agree with one target, so that it does not matter whether a place is written
twice.
-/

namespace QuantizedGemm

/-! ## Integers with room -/

/-- An integer has room in 32 bits. -/
def Fits32 (n : ℤ) : Prop := -2147483648 ≤ n ∧ n ≤ 2147483647

instance (n : ℤ) : Decidable (Fits32 n) := by unfold Fits32; infer_instance

theorem fit32_eq_ok {n : ℤ} (h : Fits32 n) : fit32 n = .ok (Int32.ofInt n) := if_pos h

theorem fit32_eq_overflow {n : ℤ} (h : ¬Fits32 n) : fit32 n = .error .overflow := if_neg h

theorem toInt_ofInt_natCast {n : ℕ} (h : n ≤ 2147483647) : (Int32.ofInt n).toInt = n :=
  Int32.toInt_ofInt_of_le (by omega) (by omega)

theorem toInt_ofInt_of_fits {n : ℤ} (h : Fits32 n) : (Int32.ofInt n).toInt = n :=
  Int32.toInt_ofInt_of_le h.1 (Int.lt_of_le_sub_one h.2)

section Int32

variable {a b : Int32}

theorem checkedAdd_eq_ok (h : Fits32 (a.toInt + b.toInt)) : checkedAdd a b = .ok (a + b) := by
  rw [checkedAdd, fit32_eq_ok h, Int32.ofInt_add, Int32.ofInt_toInt, Int32.ofInt_toInt]

end Int32

section Int64

variable {a b : Int64}

theorem checkedAdd64_eq_ok (h : -9223372036854775808 ≤ a.toInt + b.toInt)
    (h' : a.toInt + b.toInt ≤ 9223372036854775807) : checkedAdd64 a b = .ok (a + b) := by
  rw [checkedAdd64, fit64, if_pos ⟨h, h'⟩, Int64.ofInt_add, Int64.ofInt_toInt, Int64.ofInt_toInt]

theorem checkedMul64_eq_ok (h : -9223372036854775808 ≤ a.toInt * b.toInt)
    (h' : a.toInt * b.toInt ≤ 9223372036854775807) : checkedMul64 a b = .ok (a * b) := by
  rw [checkedMul64, fit64, if_pos ⟨h, h'⟩, Int64.ofInt_mul, Int64.ofInt_toInt, Int64.ofInt_toInt]

theorem checkedShiftRight64_eq_ok {shift : ℕ} (h : shift < 64) :
    checkedShiftRight64 a shift = .ok (a >>> Int64.ofNat shift) := if_pos h

end Int64

/-! ## Reads -/

theorem readAt_eq_ok {α : Type} {a : Array α} {i : ℕ} (h : i < a.size) :
    readAt a i = .ok a[i] := by
  rw [readAt, Array.getElem?_eq_getElem h]

theorem readAt_eq_at0 {b : Bytes} {i : ℕ} (h : i < b.size) : readAt b i = .ok (b.at0 i) := by
  rw [readAt_eq_ok h, Bytes.at0, Array.getElem_eq_getD]

theorem writeAt_eq_ok {α : Type} {a : Array α} {i : ℕ} (h : i < a.size) (x : α) :
    writeAt a i x = .ok (a.setIfInBounds i x) := if_pos h

theorem Bytes.readInt32_eq_ok {b : Bytes} {i : ℕ} (h : i + 4 ≤ b.size) :
    b.readInt32 i = .ok (b.int32At i) := if_pos h

/-! ## Faults of single operations -/

/-- The only fault of a computation is an overflow. -/
def OnlyOverflows {α : Type} (x : Except Fault α) : Prop := ∀ fault, x = .error fault →
  fault = .overflow

section OnlyOverflows

variable {α β : Type}

@[simp] theorem onlyOverflows_ok (a : α) : OnlyOverflows (.ok a) := nofun

theorem OnlyOverflows.bind {x : Except Fault α} {f : α → Except Fault β} (hx : OnlyOverflows x)
    (hf : ∀ a, OnlyOverflows (f a)) : OnlyOverflows (x >>= f) := by
  intro fault h
  rcases bind_eq_error_iff.mp h with h | ⟨a, -, h⟩
  · exact hx fault h
  · exact hf a fault h

theorem onlyOverflows_ite {p : Prop} [Decidable p] (a : α) :
    OnlyOverflows (if p then .ok a else .error .overflow : Except Fault α) := by
  split_ifs
  · exact onlyOverflows_ok a
  · rintro _ ⟨⟩
    rfl

theorem onlyOverflows_checkedAdd (a b : Int32) : OnlyOverflows (checkedAdd a b) :=
  onlyOverflows_ite _

theorem onlyOverflows_checkedSub (a b : Int32) : OnlyOverflows (checkedSub a b) :=
  onlyOverflows_ite _

theorem onlyOverflows_checkedAdd64 (a b : Int64) : OnlyOverflows (checkedAdd64 a b) :=
  onlyOverflows_ite _

theorem onlyOverflows_checkedMul64 (a b : Int64) : OnlyOverflows (checkedMul64 a b) :=
  onlyOverflows_ite _

theorem onlyOverflows_checkedShiftRight64 (a : Int64) (shift : ℕ) :
    OnlyOverflows (checkedShiftRight64 a shift) := onlyOverflows_ite _

end OnlyOverflows

/-! ## Loops -/

section Loop

variable {ε α β : Type} {n : ℕ}

theorem foldlM_range_succ {m : Type → Type} [Monad m] [LawfulMonad m] (step : α → ℕ → m α) (n : ℕ)
    (a : α) : (List.range (n + 1)).foldlM step a =
      (List.range n).foldlM step a >>= fun b ↦ step b n := by
  rw [List.range_succ, List.foldlM_append]
  simp

/-- A loop whose steps succeed and keep an invariant. -/
theorem foldlM_range_of_step {step : α → ℕ → Except ε α} {I : ℕ → α → Prop} {a : α} (h : I 0 a)
    (hstep : ∀ i < n, ∀ b, I i b → ∃ b', step b i = .ok b' ∧ I (i + 1) b') :
    ∃ b, (List.range n).foldlM step a = .ok b ∧ I n b := by
  induction n with
  | zero => exact ⟨a, rfl, h⟩
  | succ n ih =>
    obtain ⟨b, hrun, hb⟩ := ih fun i hi ↦ hstep i (Nat.lt_succ_of_lt hi)
    obtain ⟨b', hlast, hb'⟩ := hstep n n.lt_succ_self b hb
    exact ⟨b', by rw [foldlM_range_succ, hrun]; exact hlast, hb'⟩

theorem mapM_range_succ {m : Type → Type} [Monad m] [LawfulMonad m] (f : ℕ → m α) (n : ℕ) :
    (List.range (n + 1)).mapM f = (do pure ((← (List.range n).mapM f) ++ [← f n])) := by
  rw [List.range_succ, List.mapM_append]
  simp

theorem mapM_range_eq_ok_iff {f : ℕ → Except ε α} {l : List α} :
    (List.range n).mapM f = .ok l ↔
      l.length = n ∧ ∀ i < n, ∃ a, f i = .ok a ∧ l[i]? = some a := by
  induction n generalizing l with
  | zero =>
    rw [List.range_zero, List.mapM_nil]
    exact ⟨by rintro ⟨⟩; exact ⟨rfl, nofun⟩, fun h ↦ by rw [List.length_eq_zero_iff.mp h.1]; rfl⟩
  | succ n ih =>
    rw [mapM_range_succ, bind_eq_ok_iff]
    constructor
    · rintro ⟨before, hbefore, hrest⟩
      obtain ⟨a, ha, hl⟩ := bind_eq_ok_iff.mp hrest
      cases hl
      obtain ⟨hlength, hentries⟩ := ih.mp hbefore
      refine ⟨by simp [hlength], fun i hi ↦ ?_⟩
      rcases Nat.lt_succ_iff_lt_or_eq.mp hi with hlt | rfl
      · rw [List.getElem?_append_left (hlength ▸ hlt)]
        exact hentries i hlt
      · exact ⟨a, ha, by simp [← hlength]⟩
    · rintro ⟨hlength, hentries⟩
      obtain ⟨a, ha, hlast⟩ := hentries n n.lt_succ_self
      have hsplit : l = l.take n ++ [a] := calc
        l = l.take (n + 1) := (List.take_of_length_le hlength.le).symm
        _ = l.take n ++ [a] := by rw [List.take_add_one, hlast]; rfl
      refine ⟨l.take n, ih.mpr ⟨by simp [hlength], fun i hi ↦ ?_⟩, ?_⟩
      · rw [List.getElem?_take_of_lt hi]
        exact hentries i (Nat.lt_succ_of_lt hi)
      · rw [ha]
        exact congrArg Except.ok hsplit.symm

theorem tabulate_eq_ok_iff {f : ℕ → Except Fault α} {a : Array α} :
    tabulate n f = .ok a ↔ a.size = n ∧ ∀ i < n, ∃ x, f i = .ok x ∧ a[i]? = some x := by
  rw [tabulate, bind_eq_ok_iff]
  constructor
  · rintro ⟨l, hl, ⟨⟩⟩
    simpa using mapM_range_eq_ok_iff.mp hl
  · rintro ⟨hsize, hentries⟩
    refine ⟨a.toList, mapM_range_eq_ok_iff.mpr ⟨by simpa using hsize, by simpa using hentries⟩, ?_⟩
    simp [pure, Except.pure]

/-- A table of results fails with the first result that is missing. -/
theorem exists_of_mapM_range_eq_error {f : ℕ → Except ε α} {e : ε}
    (h : (List.range n).mapM f = .error e) : ∃ i < n, f i = .error e := by
  induction n with
  | zero => cases h
  | succ n ih =>
    rw [mapM_range_succ] at h
    rcases bind_eq_error_iff.mp h with h | ⟨before, -, h⟩
    · obtain ⟨i, hi, hfail⟩ := ih h
      exact ⟨i, Nat.lt_succ_of_lt hi, hfail⟩
    · rcases bind_eq_error_iff.mp h with h | ⟨_, -, ⟨⟩⟩
      exact ⟨n, n.lt_succ_self, h⟩

theorem exists_of_tabulate_eq_error {f : ℕ → Except Fault α} {fault : Fault}
    (h : tabulate n f = .error fault) : ∃ i < n, f i = .error fault := by
  rcases bind_eq_error_iff.mp h with h | ⟨_, -, ⟨⟩⟩
  exact exists_of_mapM_range_eq_error h

theorem exists_mapM_range {f : ℕ → Except ε α} (h : ∀ i < n, ∃ a, f i = .ok a) :
    ∃ l, (List.range n).mapM f = .ok l := by
  cases hlist : (List.range n).mapM f with
  | ok l => exact ⟨l, rfl⟩
  | error e =>
    obtain ⟨i, hi, hfail⟩ := exists_of_mapM_range_eq_error hlist
    obtain ⟨a, ha⟩ := h i hi
    cases hfail.symm.trans ha

theorem exists_tabulate {f : ℕ → Except Fault α} (h : ∀ i < n, ∃ x, f i = .ok x) :
    ∃ a, tabulate n f = .ok a := by
  obtain ⟨l, hl⟩ := exists_mapM_range h
  exact ⟨l.toArray, by rw [tabulate, hl]; rfl⟩

end Loop

/-! ## Writes -/

/-- A pass over an array puts the entries of a target at the places that it covers. At any other
place that already has the target's entry it leaves it there. -/
def Fills {α : Type} (target : Array α) (covered : ℕ → Prop)
    (pass : Array α → Except Fault (Array α)) : Prop :=
  ∀ rows : Array α, rows.size = target.size → ∃ rows', pass rows = .ok rows' ∧
    rows'.size = target.size ∧ ∀ q, covered q ∨ rows[q]? = target[q]? → rows'[q]? = target[q]?

namespace Fills

variable {α : Type} {target : Array α}

theorem writeAt {q : ℕ} {x : α} (h : target[q]? = some x) :
    Fills target (· = q) fun rows ↦ QuantizedGemm.writeAt rows q x := by
  obtain ⟨hq, -⟩ := Array.getElem?_eq_some_iff.mp h
  intro rows hsize
  refine ⟨_, writeAt_eq_ok (hsize ▸ hq) x, by simpa using hsize, fun q' hq' ↦ ?_⟩
  rw [Array.getElem?_setIfInBounds]
  split_ifs with heq hlt
  · rw [← heq, h]
  · exact absurd (hsize ▸ hq) hlt
  · exact hq'.resolve_left (Ne.symm heq)

theorem foldlM_range {n : ℕ} {covered : ℕ → ℕ → Prop}
    {pass : Array α → ℕ → Except Fault (Array α)}
    (h : ∀ i < n, Fills target (covered i) fun rows ↦ pass rows i) :
    Fills target (fun q ↦ ∃ i < n, covered i q) fun rows ↦ (List.range n).foldlM pass rows := by
  intro rows hsize
  -- after `i` passes the places of these passes are filled, and so is all that was before
  let I : ℕ → Array α → Prop := fun i rows' ↦ rows'.size = target.size ∧
    ∀ q, (∃ j < i, covered j q) ∨ rows[q]? = target[q]? → rows'[q]? = target[q]?
  refine foldlM_range_of_step (I := I) ⟨hsize, fun q hq ↦ hq.resolve_left (by simp)⟩ ?_
  rintro i hi rows' ⟨hsize', hfilled⟩
  obtain ⟨rows'', hpass, hsize'', hnext⟩ := h i hi rows' hsize'
  refine ⟨rows'', hpass, hsize'', fun q hq ↦ hnext q ?_⟩
  rcases hq with ⟨j, hj, hcovered⟩ | hq
  · rcases Nat.lt_succ_iff_lt_or_eq.mp hj with hlt | rfl
    · exact Or.inr (hfilled q (Or.inl ⟨j, hlt, hcovered⟩))
    · exact Or.inl hcovered
  · exact Or.inr (hfilled q (Or.inr hq))

theorem eq_ok {covered : ℕ → Prop} {pass : Array α → Except Fault (Array α)}
    (h : Fills target covered pass) (hall : ∀ q < target.size, covered q) {rows : Array α}
    (hsize : rows.size = target.size) : pass rows = .ok target := by
  obtain ⟨rows', hpass, hsize', hfilled⟩ := h rows hsize
  rw [hpass]
  refine congrArg Except.ok (Array.ext_getElem? fun q ↦ ?_)
  by_cases hq : q < target.size
  · exact hfilled q (Or.inl (hall q hq))
  · rw [Array.getElem?_eq_none (by omega), Array.getElem?_eq_none (by omega)]

end Fills

/-! ## Unless there is a risk -/

/-- A computation that gives the value, unless it overflows, which takes a risk. -/
def UnlessOverflow {α : Type} (risk : Prop) (x : Except Fault α) (a : α) : Prop :=
  x = .ok a ∨ risk ∧ x = .error .overflow

namespace UnlessOverflow

variable {α β : Type} {risk : Prop} {x : Except Fault α} {f : α → Except Fault β} {a b : α} {c : β}

theorem of_eq (h : x = .ok a) : UnlessOverflow risk x a := Or.inl h

theorem eq_ok (h : UnlessOverflow risk x a) (hrisk : ¬risk) : x = .ok a :=
  h.resolve_right fun hover ↦ hrisk hover.1

theorem eq_of_ok (h : UnlessOverflow risk x a) (hx : x = .ok b) : b = a := by
  rcases h with h | ⟨-, h⟩ <;> cases h.symm.trans hx
  rfl

theorem of_error (h : UnlessOverflow risk x a) {fault : Fault} (hx : x = .error fault) :
    risk ∧ fault = .overflow := by
  rcases h with h | ⟨hrisk, h⟩ <;> cases h.symm.trans hx
  exact ⟨hrisk, rfl⟩

theorem fit32 {n : ℤ} (h : ¬risk → Fits32 n) :
    UnlessOverflow risk (QuantizedGemm.fit32 n) (Int32.ofInt n) := by
  by_cases hfits : Fits32 n
  · exact of_eq (fit32_eq_ok hfits)
  · exact Or.inr ⟨not_not.mp fun hrisk ↦ hfits (h hrisk), fit32_eq_overflow hfits⟩

theorem checkedSub {a b : Int32} (h : ¬risk → Fits32 (a.toInt - b.toInt)) :
    UnlessOverflow risk (QuantizedGemm.checkedSub a b) (a - b) := by
  have hfit := fit32 h
  rwa [Int32.ofInt_sub, Int32.ofInt_toInt, Int32.ofInt_toInt] at hfit

theorem checkedMul {a b : Int32} (h : ¬risk → Fits32 (a.toInt * b.toInt)) :
    UnlessOverflow risk (QuantizedGemm.checkedMul a b) (a * b) := by
  have hfit := fit32 h
  rwa [Int32.ofInt_mul, Int32.ofInt_toInt, Int32.ofInt_toInt] at hfit

theorem bind (hx : UnlessOverflow risk x a) (hf : UnlessOverflow risk (f a) c) :
    UnlessOverflow risk (x >>= f) c := by
  rcases hx with rfl | ⟨hrisk, rfl⟩
  · exact hf
  · exact Or.inr ⟨hrisk, rfl⟩

theorem sumEach {n : ℕ} {f : ℕ → Except Fault Int32} {g : ℕ → Int32}
    (h : ∀ i < n, UnlessOverflow risk (f i) (g i)) :
    UnlessOverflow risk (QuantizedGemm.sumEach n f) (sumBelow n g) := by
  induction n with
  | zero => exact of_eq rfl
  | succ n ih =>
    rw [QuantizedGemm.sumEach, foldlM_range_succ, sumBelow_succ]
    exact (ih fun i hi ↦ h i (Nat.lt_succ_of_lt hi)).bind
      ((h n n.lt_succ_self).bind (of_eq rfl))

end UnlessOverflow

/-! ## Exactly when there is room -/

/-- A computation that gives the value where it fits, and overflows where it does not. -/
structure OverflowsUnless {α : Type} (fits : Prop) (x : Except Fault α) (a : α) : Prop where
  ok (h : fits) : x = .ok a
  overflow (h : ¬fits) : x = .error .overflow

namespace OverflowsUnless

variable {α β : Type} {fits fits' : Prop} {x : Except Fault α} {f : α → Except Fault β} {a : α}
  {b : β}

theorem congr (h : OverflowsUnless fits x a) (hiff : fits ↔ fits') :
    OverflowsUnless fits' x a where
  ok hfits := h.ok (hiff.mpr hfits)
  overflow hmiss := h.overflow fun hfits ↦ hmiss (hiff.mp hfits)

theorem eq_ok_iff (h : OverflowsUnless fits x a) {a' : α} : x = .ok a' ↔ fits ∧ a' = a := by
  by_cases hfits : fits
  · rw [h.ok hfits]
    exact ⟨by rintro ⟨⟩; exact ⟨hfits, rfl⟩, by rintro ⟨-, rfl⟩; rfl⟩
  · rw [h.overflow hfits]
    exact ⟨nofun, fun hok ↦ absurd hok.1 hfits⟩

theorem pure (a : α) : OverflowsUnless True (.ok a) a := ⟨fun _ ↦ rfl, fun h ↦ absurd trivial h⟩

theorem bind (hx : OverflowsUnless fits x a) (hf : fits → OverflowsUnless fits' (f a) b) :
    OverflowsUnless (fits ∧ fits') (x >>= f) b where
  ok h := by
    rw [hx.ok h.1]
    exact (hf h.1).ok h.2
  overflow h := by
    by_cases hfits : fits
    · rw [hx.ok hfits]
      exact (hf hfits).overflow fun hfits' ↦ h ⟨hfits, hfits'⟩
    · rw [hx.overflow hfits]
      rfl

theorem map (hx : OverflowsUnless fits x a) (g : α → β) :
    OverflowsUnless fits (do Pure.pure (g (← x))) (g a) :=
  (hx.bind fun _ ↦ pure (g a)).congr (and_iff_left trivial)

theorem fit32 (n : ℤ) : OverflowsUnless (Fits32 n) (QuantizedGemm.fit32 n) (Int32.ofInt n) :=
  ⟨fit32_eq_ok, fit32_eq_overflow⟩

theorem fit32_natCast (n : ℕ) : OverflowsUnless (n ≤ 2147483647) (QuantizedGemm.fit32 n)
    (Int32.ofInt n) :=
  (fit32 n).congr (by unfold Fits32; omega)

theorem sumEach {n : ℕ} {f : ℕ → Except Fault Int32} {g : ℕ → Int32} {p : ℕ → Prop}
    (h : ∀ i < n, OverflowsUnless (p i) (f i) (g i)) :
    OverflowsUnless (∀ i < n, p i) (QuantizedGemm.sumEach n f) (sumBelow n g) := by
  induction n with
  | zero => exact (pure 0).congr (by simp)
  | succ n ih =>
    rw [QuantizedGemm.sumEach, foldlM_range_succ, sumBelow_succ]
    refine ((ih fun i hi ↦ h i (Nat.lt_succ_of_lt hi)).bind fun _ ↦
      (h n n.lt_succ_self).map _).congr ?_
    rw [Nat.forall_lt_succ_right]

theorem mapM_range {n : ℕ} {f : ℕ → Except Fault α} {g : ℕ → α} {p : ℕ → Prop}
    (h : ∀ i < n, OverflowsUnless (p i) (f i) (g i)) :
    OverflowsUnless (∀ i < n, p i) ((List.range n).mapM f) ((List.range n).map g) := by
  induction n with
  | zero => exact (pure []).congr (by simp)
  | succ n ih =>
    rw [mapM_range_succ, List.range_succ, List.map_append, List.map_singleton]
    refine ((ih fun i hi ↦ h i (Nat.lt_succ_of_lt hi)).bind fun _ ↦
      (h n n.lt_succ_self).map _).congr ?_
    rw [Nat.forall_lt_succ_right]

end OverflowsUnless

end QuantizedGemm
