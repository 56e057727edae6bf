import Mathlib.Tactic.SplitIfs
import QuantizedGemm.Kernel.Call

/-!
# Runs that succeed

Everything here that can end early is a sequence of steps, so that one fact about sequencing and one
about loops is all that a proof about the end of a computation needs.

## Checks

A check that is a sequence of refusals succeeds if none of them applies, and fails with the first
one that does. The same check may be part of a computation that also faults: `asRefusal` and
`asFault` keep what it comes to and only say which of the two a failure is.

## Runs

A run over a buffer succeeds if each of its steps does. A loop of steps that all succeed on buffers
of an invariant is the fold of their effects (`forM_eq_ok`), and what one step of a fold brings
about and no step undoes holds in the end (`foldl_of_mem`). These two are what turns a kernel into a
function of its buffer.
-/

namespace QuantizedGemm

/-! ## Checks -/

theorem exists_eq_ok {ε α : Type} {x : Except ε α} (h : x.isOk = true) : ∃ a, x = .ok a := by
  cases x with
  | error e => cases h
  | ok a => exact ⟨a, rfl⟩

@[simp] theorem ok_bind {ε α β : Type} (a : α) (f : α → Except ε β) :
    (Except.ok a >>= f) = f a := rfl

@[simp] theorem error_bind {ε α β : Type} (e : ε) (f : α → Except ε β) :
    (Except.error e >>= f) = .error e := rfl

theorem bind_eq_ok_iff {ε α β : Type} {x : Except ε α} {f : α → Except ε β} {b : β} :
    (x >>= f) = .ok b ↔ ∃ a, x = .ok a ∧ f a = .ok b := by
  cases x with
  | error e => exact ⟨nofun, by rintro ⟨a, h, -⟩; cases h⟩
  | ok a => exact ⟨fun h ↦ ⟨a, rfl, h⟩, by rintro ⟨a', ⟨⟩, h⟩; exact h⟩

theorem bind_eq_error_iff {ε α β : Type} {x : Except ε α} {f : α → Except ε β} {e : ε} :
    (x >>= f) = .error e ↔ x = .error e ∨ ∃ a, x = .ok a ∧ f a = .error e := by
  cases x with
  | error e' => exact ⟨by rintro ⟨⟩; exact Or.inl rfl, by rintro (⟨⟨⟩⟩ | ⟨_, ⟨⟩, -⟩); rfl⟩
  | ok a => exact ⟨fun h ↦ Or.inr ⟨a, rfl, h⟩, by rintro (⟨⟨⟩⟩ | ⟨_, ⟨⟩, h⟩); exact h⟩

theorem check_bind_eq_ok_iff {ε β : Type} {x : Except ε Unit} {f : Unit → Except ε β} {b : β} :
    (x >>= f) = .ok b ↔ x = .ok () ∧ f () = .ok b := by
  rw [bind_eq_ok_iff]
  exact ⟨fun ⟨_, h⟩ ↦ h, fun h ↦ ⟨(), h⟩⟩

/-- A refusal that applies under a condition, before the rest of a check. -/
theorem refuse_if_eq_ok_iff {ε α β : Type} {p : Prop} [Decidable p] {e : ε}
    {f : α → Except ε β} {x : Except ε β} {b : β} :
    (if p then throw e >>= f else x) = .ok b ↔ ¬p ∧ x = .ok b := by
  split_ifs with h
  · exact ⟨nofun, fun hp ↦ absurd h hp.1⟩
  · exact (and_iff_right h).symm

theorem refuse_last_eq_ok_iff {ε : Type} {p : Prop} [Decidable p] {e : ε} :
    (if p then throw e else pure () : Except ε Unit) = .ok () ↔ ¬p := by
  split_ifs with h
  · exact ⟨nofun, fun hp ↦ absurd h hp⟩
  · exact ⟨fun _ ↦ h, fun _ ↦ rfl⟩

@[simp] theorem requireLength_eq_ok_iff {what : String} {required actual : Nat} :
    requireLength what required actual = .ok () ↔ required ≤ actual := by
  rw [requireLength]
  split_ifs with h
  · exact ⟨nofun, fun hle ↦ absurd h (Nat.not_lt.mpr hle)⟩
  · exact ⟨fun _ ↦ Nat.not_lt.mp h, fun _ ↦ rfl⟩

/-! ## Refusals and faults as failures -/

section Failure

variable {α : Type} {a : α} {e : Failure}

@[simp] theorem asRefusal_ok : asRefusal (.ok a) = .ok a := rfl

@[simp] theorem asRefusal_error {cause : Error} :
    asRefusal (.error cause : Except Error α) = .error (.refused cause) := rfl

@[simp] theorem asFault_ok : asFault (.ok a) = .ok a := rfl

@[simp] theorem asFault_error {fault : Fault} :
    asFault (.error fault : Except Fault α) = .error (.fault fault) := rfl

@[simp] theorem asRefusal_eq_ok_iff {x : Except Error α} : asRefusal x = .ok a ↔ x = .ok a := by
  cases x <;> simp

@[simp] theorem asRefusal_eq_error_iff {x : Except Error α} :
    asRefusal x = .error e ↔ ∃ cause, x = .error cause ∧ e = .refused cause := by
  cases x <;> simp [eq_comm]

@[simp] theorem asFault_eq_ok_iff {x : Except Fault α} : asFault x = .ok a ↔ x = .ok a := by
  cases x <;> simp

@[simp] theorem asFault_eq_error_iff {x : Except Fault α} :
    asFault x = .error e ↔ ∃ fault, x = .error fault ∧ e = .fault fault := by
  cases x <;> simp [eq_comm]

end Failure

/-! ## Loops of checks -/

theorem forM_range_succ {m : Type → Type} [Monad m] [LawfulMonad m] (step : Nat → m Unit)
    (n : Nat) :
    (List.range (n + 1)).forM step = (List.range n).forM step >>= fun _ ↦ step n := by
  rw [List.range_succ, List.forM_eq_forM, List.forM_append, List.forM_cons]
  simp

theorem forM_range_congr {m : Type → Type} [Monad m] [LawfulMonad m] {step step' : Nat → m Unit}
    {n : Nat} (h : ∀ i < n, step i = step' i) :
    (List.range n).forM step = (List.range n).forM step' := by
  induction n with
  | zero => rfl
  | succ n ih =>
    rw [forM_range_succ, forM_range_succ, ih fun i hi ↦ h i (Nat.lt_succ_of_lt hi),
      h n n.lt_succ_self]

section Loop

variable {ε : Type} {check : Nat → Except ε Unit} {n : Nat}

theorem forM_range_eq_ok_iff :
    (List.range n).forM check = .ok () ↔ ∀ i < n, check i = .ok () := by
  induction n with
  | zero => exact ⟨fun _ i hi ↦ absurd hi i.not_lt_zero, fun _ ↦ rfl⟩
  | succ n ih =>
    rw [forM_range_succ, check_bind_eq_ok_iff, ih]
    constructor
    · rintro ⟨hbefore, hlast⟩ i hi
      rcases Nat.lt_succ_iff_lt_or_eq.mp hi with hlt | rfl
      · exact hbefore i hlt
      · exact hlast
    · intro h
      exact ⟨fun i hi ↦ h i (Nat.lt_succ_of_lt hi), h n n.lt_succ_self⟩

theorem forM_range_eq_error_iff {e : ε} : (List.range n).forM check = .error e ↔
    ∃ i < n, (∀ i' < i, check i' = .ok ()) ∧ check i = .error e := by
  induction n with
  | zero => exact ⟨nofun, fun ⟨i, hi, _⟩ ↦ absurd hi i.not_lt_zero⟩
  | succ n ih =>
    rw [forM_range_succ]
    constructor
    · intro h
      cases hloop : (List.range n).forM check with
      | error e' =>
        rw [hloop] at h
        obtain ⟨i, hi, hfirst⟩ := ih.mp (hloop.trans h)
        exact ⟨i, Nat.lt_succ_of_lt hi, hfirst⟩
      | ok _ =>
        rw [hloop] at h
        exact ⟨n, n.lt_succ_self, forM_range_eq_ok_iff.mp hloop, h⟩
    · rintro ⟨i, hi, hbefore, hfirst⟩
      rcases Nat.lt_succ_iff_lt_or_eq.mp hi with hlt | rfl
      · rw [ih.mpr ⟨i, hlt, hbefore, hfirst⟩]
        rfl
      · rw [forM_range_eq_ok_iff.mpr hbefore]
        exact hfirst

end Loop

theorem mapM_eq_some {α β : Type} {f : α → Option β} {g : α → β} {l : List α}
    (h : ∀ a ∈ l, f a = some (g a)) : l.mapM f = some (l.map g) := by
  induction l with
  | nil => rfl
  | cons a l ih =>
    rw [List.mapM_cons, h a List.mem_cons_self, ih fun b hb ↦ h b (List.mem_cons_of_mem a hb)]
    rfl

/-! ## Runs -/

section Run

variable {α β : Type} {c c' : Bytes}

theorem run_bind_of_ok {x : EStateM Failure Bytes α} {f : α → EStateM Failure Bytes β} {a : α}
    (h : x c = .ok a c') : (x >>= f) c = f a c' := by
  change EStateM.bind x f c = f a c'
  rw [EStateM.bind, h]

theorem run_bind_of_error {x : EStateM Failure Bytes α} {f : α → EStateM Failure Bytes β}
    {e : Failure} (h : x c = .error e c') : (x >>= f) c = .error e c' := by
  change EStateM.bind x f c = .error e c'
  rw [EStateM.bind, h]

theorem run_orRefuse {x : Except Error α} {a : α} (h : x = .ok a) : orRefuse x c = .ok a c := by
  rw [h]
  rfl

theorem run_orRefuse_of_error {x : Except Error α} {e : Error} (h : x = .error e) :
    orRefuse x c = .error (.refused e) c := by
  rw [h]
  rfl

theorem run_orFault {fault : Fault} {x : Option α} {a : α} (h : x = some a) :
    orFault fault x c = .ok a c := by
  rw [h]
  rfl

theorem run_orRaise {x : Except Fault α} {a : α} (h : x = .ok a) : orRaise x c = .ok a c := by
  rw [h]
  rfl

theorem run_orRaise_of_error {x : Except Fault α} {fault : Fault} (h : x = .error fault) :
    orRaise x c = .error (.fault fault) c := by
  rw [h]
  rfl

@[simp] theorem run_get : (get : EStateM Failure Bytes Bytes) c = .ok c c := rfl

theorem run_forM_range_succ {step : Nat → EStateM Failure Bytes Unit} {n : Nat}
    (h : (List.range n).forM step c = .ok () c') :
    (List.range (n + 1)).forM step c = step n c' := by
  rw [forM_range_succ, run_bind_of_ok h]

/-- A loop whose steps succeed and keep an invariant. -/
theorem forM_eq_ok {step : α → EStateM Failure Bytes Unit} {next : Bytes → α → Bytes}
    {I : Bytes → Prop} {l : List α}
    (hstep : ∀ a ∈ l, ∀ c, I c → step a c = .ok () (next c a) ∧ I (next c a)) (hc : I c) :
    l.forM step c = .ok () (l.foldl next c) := by
  induction l generalizing c with
  | nil => rfl
  | cons a l ih =>
    obtain ⟨hrun, hI⟩ := hstep a List.mem_cons_self c hc
    change (step a >>= fun _ ↦ l.forM step) c = _
    rw [run_bind_of_ok hrun, List.foldl_cons]
    exact ih (fun b hb ↦ hstep b (List.mem_cons_of_mem a hb)) hI

theorem of_forM_eq_ok {step : α → EStateM Failure Bytes Unit} {l : List α}
    (h : l.forM step c = .ok () c') {a : α} (ha : a ∈ l) :
    ∃ c₁ c₂, step a c₁ = .ok () c₂ := by
  induction l generalizing c with
  | nil => exact absurd ha List.not_mem_nil
  | cons b l ih =>
    change (step b >>= fun _ ↦ l.forM step) c = _ at h
    cases hb : step b c with
    | error e c₁ => cases (run_bind_of_error hb).symm.trans h
    | ok _ c₁ =>
      rcases List.mem_cons.mp ha with rfl | ha
      · exact ⟨c, c₁, hb⟩
      · exact ih ((run_bind_of_ok hb).symm.trans h) ha

end Run

/-- What one step brings about and no step undoes holds in the end. -/
theorem foldl_of_mem {α σ : Type} {next : σ → α → σ} {I P : σ → Prop} {l : List α} {a : α} {s : σ}
    (hI : ∀ b ∈ l, ∀ s, I s → I (next s b)) (hkeep : ∀ b ∈ l, ∀ s, I s → P s → P (next s b))
    (ha : a ∈ l) (hset : ∀ s, I s → P (next s a)) (hs : I s) : P (l.foldl next s) := by
  -- the steps before keep the invariant, and the steps after keep what the step has set as well
  obtain ⟨before, after, rfl⟩ := List.append_of_mem ha
  have hbefore : I (before.foldl next s) :=
    before.foldlRecOn next hs fun s hs b hb ↦ hI b (by simp [hb]) s hs
  have hafter := after.foldlRecOn next (motive := fun s ↦ I s ∧ P s)
    ⟨hI a ha _ hbefore, hset _ hbefore⟩ fun s hs b hb ↦
      ⟨hI b (by simp [hb]) s hs.1, hkeep b (by simp [hb]) s hs.1 hs.2⟩
  rw [List.foldl_append, List.foldl_cons]
  exact hafter.2

end QuantizedGemm
