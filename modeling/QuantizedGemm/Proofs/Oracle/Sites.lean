import QuantizedGemm.Proofs.Oracle.Comparison
import QuantizedGemm.Proofs.OutputQuantization
import QuantizedGemm.Proofs.Problem
import QuantizedGemm.Proofs.Quantization.Families

/-!
# Runs of the oracle

A run goes through the sites that its test case draws (`drawSites`), one for each iteration. The
kernel has no part in drawing them, so that a run is decided site by site, by the outcome of one
call each. What is left is what a sequence of checks reports (`runSites`).

## How drawing ends

A valid test case with a reduction of 32 bits draws a site for each iteration, unless constant bytes
are drawn too often (`drawsEnd`), or a group of weights turns out to have no room when it is packed.
The second is no matter of luck with the source for tiles of short groups, and ends a run after the
sites that were drawn before.

## Drawn sites

The quantization of a drawn site is one that all families accept, and each of its elements has an
accumulator and a place in the output. This is what the comparison needs to be decisive.
-/

namespace QuantizedGemm.Oracle

/-! ## Sequences of sites -/

/-- Each of the next problems is drawn without running out of attempts. -/
def drawsEnd {σ : Type} [WordSource σ] (attempts : ℕ) (t : TestCase) : (count : ℕ) → σ → Bool
  | 0, _ => true
  | count + 1, source =>
    match (Problem.generate attempts t).run source with
    | .error e => e != .fault .exhausted
    | .ok (_, source) => drawsEnd attempts t count source

/-- The sites that a test case draws, as far as problems are generated. -/
def drawSites {σ : Type} [WordSource σ] (attempts : ℕ) (t : TestCase) (seed : ℕ) :
    (remaining iteration : ℕ) → σ → List Site
  | 0, _, _ => []
  | remaining + 1, iteration, source =>
    match (Problem.generate attempts t).run source with
    | .error _ => []
    | .ok (problem, source) =>
      ⟨t, problem, problem.quantization, seed, iteration⟩ ::
        drawSites attempts t seed remaining (iteration + 1) source

/-- A site of iteration `iteration`. -/
structure Site.Drawn (s : Site) (t : TestCase) (seed iteration : ℕ) : Prop where
  testCase : s.testCase = t
  seed : s.seed = seed
  iteration : s.iteration = iteration
  quantization : s.quantization = .ofAccumulators s.problem.accumulators.toList
  sound : s.problem.Sound t

/-- Runs a check on one site after the other until it fails, and ends with `last` if it does not. -/
def runSites (check : ℕ → Site → Except Failure Unit) (last : Except Failure Unit) :
    List Site → ℕ → Verdict
  | [], call => ⟨call, last⟩
  | s :: sites, call =>
    match check call s with
    | .error e => ⟨call + 1, .error e⟩
    | .ok _ => runSites check last sites (call + 1)

/-- How a run of `count` iterations ends that has passed all the sites it drew. -/
def endAfter (count drawn : ℕ) : Except Failure Unit :=
  if drawn = count then .ok () else .error (.fault .overflow)

@[simp] theorem endAfter_eq_ok_iff {count drawn : ℕ} :
    endAfter count drawn = .ok () ↔ drawn = count := by
  unfold endAfter
  split_ifs with h
  · exact iff_of_true rfl h
  · exact iff_of_false nofun h

theorem endAfter_eq_error_iff {count drawn : ℕ} (hle : drawn ≤ count) {e : Failure} :
    endAfter count drawn = .error e ↔ drawn < count ∧ e = .fault .overflow := by
  unfold endAfter
  split_ifs with h
  · exact iff_of_false nofun fun hlt ↦ absurd hlt.1 (by omega)
  · rw [Except.error.injEq, eq_comm, iff_and_self]
    exact fun _ ↦ Nat.lt_of_le_of_ne hle h

section Run

variable {check : ℕ → Site → Except Failure Unit} {last : Except Failure Unit} {sites : List Site}
  {call calls : ℕ} {e : Failure}

theorem forall_getElem?_cons {P : ℕ → Site → Prop} {s : Site} :
    (∀ k s', (s :: sites)[k]? = some s' → P k s') ↔
      P 0 s ∧ ∀ k s', sites[k]? = some s' → P (k + 1) s' := by
  constructor
  · intro h
    exact ⟨h 0 s rfl, fun k s' hk ↦ h (k + 1) s' hk⟩
  · rintro ⟨hfirst, hrest⟩ k s' hk
    cases k with
    | zero =>
      cases hk
      exact hfirst
    | succ k => exact hrest k s' hk

/-- Every check of a run succeeds, or there is a first one that fails. -/
theorem forall_ok_or_exists_error (check : ℕ → Site → Except Failure Unit) (sites : List Site)
    (call : ℕ) : (∀ k s, sites[k]? = some s → check (call + k) s = .ok ()) ∨
      ∃ k s e, sites[k]? = some s ∧
        (∀ k' < k, ∀ s', sites[k']? = some s' → check (call + k') s' = .ok ()) ∧
        check (call + k) s = .error e := by
  classical
  by_cases h : ∃ k s, sites[k]? = some s ∧ check (call + k) s ≠ .ok ()
  · obtain ⟨s, hs, hcheck⟩ := Nat.find_spec h
    refine Or.inr ⟨Nat.find h, s, ?_⟩
    cases herror : check (call + Nat.find h) s with
    | ok _ => exact absurd herror hcheck
    | error e =>
      refine ⟨e, hs, fun k' hk' s' hs' ↦ ?_, rfl⟩
      by_contra hne
      exact Nat.find_min h hk' ⟨s', hs', hne⟩
  · left
    intro k s hs
    by_contra hne
    exact h ⟨k, s, hs, hne⟩

theorem runSites_of_ok (h : ∀ k s, sites[k]? = some s → check (call + k) s = .ok ()) :
    runSites check last sites call = ⟨call + sites.length, last⟩ := by
  induction sites generalizing call with
  | nil => rfl
  | cons s sites ih =>
    obtain ⟨hfirst, hrest⟩ := forall_getElem?_cons.mp h
    have htail : runSites check last sites (call + 1) = _ := ih fun k s' hk ↦ by
      rw [Nat.add_assoc, Nat.add_comm 1]
      exact hrest k s' hk
    rw [Nat.add_zero] at hfirst
    rw [runSites, hfirst]
    dsimp only
    rw [htail, List.length_cons, Nat.add_assoc, Nat.add_comm 1]

theorem runSites_of_error {k : ℕ} {s : Site} (hk : sites[k]? = some s)
    (hbefore : ∀ k' < k, ∀ s', sites[k']? = some s' → check (call + k') s' = .ok ())
    (hcheck : check (call + k) s = .error e) :
    runSites check last sites call = ⟨call + k + 1, .error e⟩ := by
  induction k generalizing sites call with
  | zero =>
    cases sites with
    | nil => cases hk
    | cons s' sites =>
      cases hk
      rw [Nat.add_zero] at hcheck
      rw [runSites, hcheck]
  | succ k ih =>
    cases sites with
    | nil => cases hk
    | cons s' sites =>
      have hshift : ∀ k, call + 1 + k = call + (k + 1) := fun k ↦ by omega
      have hfirst := hbefore 0 k.succ_pos s' rfl
      have htail : runSites check last sites (call + 1) = _ := ih hk
        (fun k' hk' s'' hs'' ↦ hshift k' ▸ hbefore (k' + 1) (Nat.succ_lt_succ hk') s'' hs'')
        (hshift k ▸ hcheck)
      rw [Nat.add_zero] at hfirst
      rw [runSites, hfirst]
      dsimp only
      rw [htail, hshift]

theorem runSites_eq_ok_iff :
    runSites check last sites call = ⟨calls, .ok ()⟩ ↔
      (∀ k s, sites[k]? = some s → check (call + k) s = .ok ()) ∧ last = .ok () ∧
        calls = call + sites.length := by
  rcases forall_ok_or_exists_error check sites call with hall | ⟨k, s, e, hk, hbefore, hcheck⟩
  · rw [runSites_of_ok hall, and_iff_right hall, Verdict.mk.injEq, and_comm]
    exact and_congr_right fun _ ↦ eq_comm
  · rw [runSites_of_error hk hbefore hcheck]
    refine iff_of_false nofun fun h ↦ ?_
    cases (h.1 k s hk).symm.trans hcheck

/-- A run fails with the first check that fails, and without further calls, or as it is to end after
checks that succeed. -/
theorem runSites_eq_error_iff :
    runSites check last sites call = ⟨calls, .error e⟩ ↔
      (∃ k s, sites[k]? = some s ∧
        (∀ k' < k, ∀ s', sites[k']? = some s' → check (call + k') s' = .ok ()) ∧
        check (call + k) s = .error e ∧ calls = call + k + 1) ∨
      ((∀ k s, sites[k]? = some s → check (call + k) s = .ok ()) ∧ last = .error e ∧
        calls = call + sites.length) := by
  constructor
  · intro hrun
    rcases forall_ok_or_exists_error check sites call with hall | ⟨k, s, e', hk, hbefore, hcheck⟩
    · rw [runSites_of_ok hall] at hrun
      cases hrun
      exact Or.inr ⟨hall, rfl, rfl⟩
    · rw [runSites_of_error hk hbefore hcheck] at hrun
      cases hrun
      exact Or.inl ⟨k, s, hk, hbefore, hcheck, rfl⟩
  · rintro (⟨k, s, hk, hbefore, hcheck, rfl⟩ | ⟨hall, rfl, rfl⟩)
    · exact runSites_of_error hk hbefore hcheck
    · exact runSites_of_ok hall

theorem runSites_congr {check' : ℕ → Site → Except Failure Unit}
    (h : ∀ k s, sites[k]? = some s → check (call + k) s = check' (call + k) s) :
    runSites check last sites call = runSites check' last sites call := by
  induction sites generalizing call with
  | nil => rfl
  | cons s sites ih =>
    obtain ⟨hfirst, hrest⟩ := forall_getElem?_cons.mp h
    rw [Nat.add_zero] at hfirst
    rw [runSites, runSites, hfirst, ih fun k s' hk ↦ ?_]
    rw [Nat.add_assoc, Nat.add_comm 1]
    exact hrest k s' hk

end Run

/-! ## Drawing sites -/

section Draw

variable {σ : Type} [WordSource σ] {attempts seed : ℕ} {t : TestCase} {remaining iteration : ℕ}
  {source : σ}

theorem length_drawSites_le :
    (drawSites attempts t seed remaining iteration source).length ≤ remaining := by
  induction remaining generalizing iteration source with
  | zero => exact le_rfl
  | succ remaining ih =>
    rw [drawSites]
    split
    · exact Nat.zero_le _
    · exact Nat.succ_le_succ ih

theorem drawn_of_generate {source' : σ} {p : Problem} (seed iteration : ℕ)
    (hrun : (Problem.generate attempts t).run source = .ok (p, source')) :
    t.Valid ∧ Site.Drawn ⟨t, p, p.quantization, seed, iteration⟩ t seed iteration := by
  obtain ⟨hvalid, hsound⟩ := Problem.sound_of_generate hrun
  exact ⟨hvalid, rfl, rfl, rfl, rfl, hsound⟩

/-- A site is of the iteration that its place says, and its problem is the one of that iteration. -/
theorem drawn_of_mem {k : ℕ} {s : Site}
    (hk : (drawSites attempts t seed remaining iteration source)[k]? = some s) :
    s.Drawn t seed (iteration + k) ∧
      ∃ source', (Problem.generateNth attempts t k).run source = .ok (s.problem, source') := by
  induction remaining generalizing iteration source k with
  | zero => cases hk
  | succ remaining ih =>
    rw [drawSites] at hk
    cases hrun : (Problem.generate attempts t).run source with
    | error e =>
      rw [hrun] at hk
      cases hk
    | ok r =>
      rw [hrun] at hk
      cases k with
      | zero =>
        cases hk
        exact ⟨(drawn_of_generate seed iteration hrun).2, _, hrun⟩
      | succ k =>
        obtain ⟨hs, source', hnth⟩ := ih hk
        rw [Nat.add_assoc, Nat.add_comm 1] at hs
        exact ⟨hs, source', Draw.run_bind_eq_ok_iff.mpr ⟨_, _, hrun, hnth⟩⟩

theorem getElem?_drawSites {i : ℕ} {p : Problem} {source' : σ}
    (hrun : (Problem.generateNth attempts t i).run source = .ok (p, source'))
    (hi : i < remaining) :
    ((drawSites attempts t seed remaining iteration source)[i]?).map Site.problem = some p := by
  induction i generalizing source remaining iteration with
  | zero =>
    obtain ⟨remaining, rfl⟩ := Nat.exists_eq_add_one.mpr hi
    have hfirst : (Problem.generate attempts t).run source = .ok (p, source') := hrun
    rw [drawSites, hfirst]
    rfl
  | succ i ih =>
    obtain ⟨remaining, rfl⟩ := Nat.exists_eq_add_one.mpr (Nat.zero_lt_of_lt hi)
    obtain ⟨q, s₁, hfirst, hrest⟩ := Draw.run_bind_eq_ok_iff.mp hrun
    rw [drawSites, hfirst]
    exact ih hrest (Nat.lt_of_succ_lt_succ hi)

section Ending

variable (h : t.Valid) (hreduction : t.ks * t.k ≤ maxReduction)

include h hreduction

/-- Where drawing ends, only the packing may fail. -/
theorem overflow_of_drawsEnd (hdraws : drawsEnd attempts t (remaining + 1) source) {e : Failure}
    (hrun : (Problem.generate attempts t).run source = .error e) :
    e = .fault .overflow ∧ ¬t.GroupsFit := by
  rcases Problem.exhausted_or_overflow_of_run_generate h hreduction hrun with rfl | hoverflow
  · simp [drawsEnd, hrun] at hdraws
  · exact hoverflow

/-- Groups that have room have it in every iteration. -/
theorem length_drawSites (hdraws : drawsEnd attempts t remaining source) (hgroups : t.GroupsFit) :
    (drawSites attempts t seed remaining iteration source).length = remaining := by
  induction remaining generalizing iteration source with
  | zero => rfl
  | succ remaining ih =>
    cases hrun : (Problem.generate attempts t).run source with
    | error e => exact absurd hgroups (overflow_of_drawsEnd h hreduction hdraws hrun).2
    | ok r =>
      rw [drawsEnd, hrun] at hdraws
      rw [drawSites, hrun]
      exact congrArg Nat.succ (ih hdraws)

/-- The first iteration without a site is one whose packing overflows. -/
theorem generateNth_of_length_lt (hdraws : drawsEnd attempts t remaining source)
    (hlt : (drawSites attempts t seed remaining iteration source).length < remaining) :
    (Problem.generateNth attempts t
      (drawSites attempts t seed remaining iteration source).length).run source =
        .error (.fault .overflow) := by
  induction remaining generalizing iteration source with
  | zero => cases hlt
  | succ remaining ih =>
    cases hrun : (Problem.generate attempts t).run source with
    | error e =>
      rw [drawSites, hrun]
      exact (overflow_of_drawsEnd h hreduction hdraws hrun).1 ▸ hrun
    | ok r =>
      rw [drawsEnd, hrun] at hdraws
      rw [drawSites, hrun] at hlt ⊢
      exact Draw.run_bind_eq_error_iff.mpr
        (Or.inr ⟨_, _, hrun, ih hdraws (Nat.lt_of_succ_lt_succ hlt)⟩)

/-- A run of the oracle goes through the sites that are drawn. -/
theorem runIterations_eq_runSites {subject : Subject}
    (hderive : ∀ (s : Site) (k : ℕ), s.Drawn t seed k →
      ∃ params, subject.derive s.args = .ok params)
    {call : ℕ} (hdraws : drawsEnd attempts t remaining source) :
    runIterations attempts t subject seed remaining iteration call source =
      runSites (fun call s ↦ s.checkOutcome subject.reference (s.outcome subject call))
        (endAfter remaining (drawSites attempts t seed remaining iteration source).length)
        (drawSites attempts t seed remaining iteration source) call := by
  induction remaining generalizing iteration call source with
  | zero => rfl
  | succ remaining ih =>
    rw [runIterations, drawSites]
    cases hrun : (Problem.generate attempts t).run source with
    | error e =>
      obtain ⟨rfl, -⟩ := overflow_of_drawsEnd h hreduction hdraws hrun
      rfl
    | ok r =>
      rw [drawsEnd, hrun] at hdraws
      obtain ⟨params, hparams⟩ := hderive ⟨t, r.1, r.1.quantization, seed, iteration⟩ iteration
        (drawn_of_generate seed iteration hrun).2
      dsimp only
      rw [judge_eq hparams, runSites]
      generalize Site.checkOutcome _ subject.reference _ = result
      cases result with
      | error e => rfl
      | ok _ =>
        refine (ih hdraws).trans ?_
        rw [endAfter, endAfter, List.length_cons]
        simp only [Nat.add_right_cancel_iff]

end Ending

end Draw

/-! ## Drawn sites -/

namespace Site.Drawn

variable {s : Site} {t : TestCase} {seed iteration : ℕ} (hs : s.Drawn t seed iteration)
  (h : t.Valid)

include hs

theorem args_eq : s.args =
    ⟨t.bZeroPoint, s.quantization.scale, s.quantization.zeroPoint, t.qmin, t.qmax⟩ := by
  rw [Site.args, hs.testCase]

theorem exists_accumulator {i j : ℕ} (hi : i < t.m) (hj : j < t.n) :
    ∃ acc, s.problem.accumulators[i * t.n + j]? = some acc := by
  obtain ⟨f, target, -, -, haccumulators⟩ := hs.sound.accumulators
  exact ⟨_, haccumulators i hi j hj⟩

include h

/-- The quantization of a problem is one that the fixed-point family accepts. -/
theorem validate_args : s.args.validate QuantizationArgs.maxFixedScale = .ok () := by
  rw [hs.args_eq]
  exact OutputQuantization.validate_ofAccumulators
    (congrArg OutputQuantization.scale hs.quantization) h.range

theorem exists_derive_family (f : Family) : ∃ params, f.derive s.args = .ok params :=
  f.exists_derive (QuantizationArgs.validate_maxScale (hs.validate_args h) f)

theorem exists_derive (v : Variant) : ∃ params, v.derive s.args = .ok params :=
  hs.exists_derive_family h v.family

theorem inRange (strategy : Strategy) : s.InRange strategy.reference := by
  intro acc
  rw [hs.testCase]
  exact strategy.reference_mem h.range

theorem exists_element {output : Bytes} (hsize : output.size = s.problem.freshOutput.size)
    {i j : ℕ} (hi : i < t.m) (hj : j < t.n) :
    ∃ actual, output[s.problem.outputPosition i j]? = some actual := by
  have hlt : s.problem.outputPosition i j < output.size := by
    have hstrides := h.stridesDisjoint
    rw [← hs.sound.m_eq] at hi
    rw [← hs.sound.n_eq] at hj
    rw [hsize, Problem.freshOutput, Array.size_replicate]
    refine outputPosition_lt_outputLength ?_ hi hj
    rw [hs.sound.shape_eq, hs.sound.cnStride_eq, hs.sound.n_eq]
    exact hstrides.1
  exact ⟨_, Array.getElem?_eq_getElem hlt⟩

/-- The comparison decides the calls of a drawn site, if the kernel keeps the size of the output. -/
theorem checkOutcome_iff (v : Variant) {kernel : ℕ → Kernel}
    (hsize : ∀ number call c c', kernel number call c = .ok () c' → c'.size = c.size) (call : ℕ) :
    let outcome := s.outcome ⟨kernel, v.derive, v.reference⟩ call
    (s.checkOutcome v.reference outcome = .ok () ↔ s.Passes v.reference outcome) ∧
    ∀ e, s.checkOutcome v.reference outcome = .error e ↔ s.Reports v.reference outcome e := by
  intro outcome
  have hacc : ∀ i < s.testCase.m, ∀ j < s.testCase.n,
      ∃ acc, s.problem.accumulators[i * s.testCase.n + j]? = some acc := by
    intro i hi j hj
    rw [hs.testCase] at hi hj ⊢
    exact hs.exists_accumulator hi hj
  have helement : ∀ output, outcome = .ok () output → ∀ i < s.testCase.m, ∀ j < s.testCase.n,
      ∃ actual, output[s.problem.outputPosition i j]? = some actual := by
    intro output houtput i hi j hj
    obtain ⟨params, hparams⟩ := hs.exists_derive h v
    rw [hs.testCase] at hi hj
    have hkernel := (Site.outcome_eq hparams call).symm.trans houtput
    exact hs.exists_element h (hsize _ _ _ _ hkernel) hi hj
  have hmem := hs.inRange h v.strategy
  exact ⟨Site.checkOutcome_eq_ok_iff hmem hacc helement,
    fun _ ↦ Site.checkOutcome_eq_error_iff hmem hacc helement⟩

end Site.Drawn

end QuantizedGemm.Oracle
