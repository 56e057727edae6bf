import QuantizedGemm.Proofs.Oracle
import QuantizedGemm.Proofs.Scenario.Coverage

/-!
# The catalogue passes its scenarios

A variant of the catalogue passes each of its scenarios on every host that runs it
(`Scenario.passes_run`). No case is refused for its configuration or its quantization, no buffer is
too small for it and no plain operation overflows in it, whichever settings and seeds it is run
with.

## What may still end a run

Constant operands are drawn anew, and a source that gave nothing else would be asked for ever.
The program gives up after many redraws, and this is the one failure that is left.

## Depths

A scenario goes at most ten blocks deep and three taps wide. Blocks of the catalogue are short, so
that its scenarios are far from the longest reductions.
-/

namespace QuantizedGemm

/-- A run that nothing failed in, unless it ran out of redraws. -/
def PassesOrExhausts (result : Except Failure Unit) : Prop :=
  result = .ok () ∨ result = .error (.fault .exhausted)

/-! ## One test case -/

namespace Oracle

variable {σ : Type} [WordSource σ] {v : Variant} (hv : v ∈ Variant.catalogue) {host : Capabilities}
  (hhost : host.supports v.isa) {t : TestCase} (hshape : t.shape = v.shape)
  {attempts : ℕ} {source : σ} {p : Problem}

include hv hhost hshape

/-- A problem that was generated is passed. -/
theorem judge_of_generate {source' : σ}
    (hrun : (Problem.generate attempts t).run source = .ok (p, source')) (seed iteration call : ℕ) :
    judge (v.subject host) ⟨t, p, p.quantization, seed, iteration⟩ call = ⟨call + 1, .ok ()⟩ := by
  obtain ⟨h, hdrawn⟩ := drawn_of_generate seed iteration hrun
  obtain ⟨params, hderive⟩ := hdrawn.exists_derive h v
  have hpassed : p.PassedBy v host t :=
    Problem.passedBy_of_generateNth (i := 0) hrun hv hhost hshape
  rw [judge_eq hderive]
  exact congrArg _ (Site.checkOutcome_of_passes (hdrawn.inRange h v.strategy)
    (hdrawn.passes hpassed call))

variable (h : t.Valid) (hreduction : t.ks * t.k ≤ maxReduction)

include h hreduction

theorem passes_runIterations (seed remaining iteration call : ℕ) :
    PassesOrExhausts
      (runIterations attempts t (v.subject host) seed remaining iteration call source).result := by
  induction remaining generalizing iteration call source with
  | zero => exact Or.inl rfl
  | succ remaining ih =>
    rw [runIterations]
    cases hrun : (Problem.generate attempts t).run source with
    | error e =>
      have hgroups := TestCase.groupsFit_of_mem hv hshape
      rcases Problem.exhausted_or_overflow_of_run_generate h hreduction hrun with rfl | hoverflow
      · exact Or.inr rfl
      · exact absurd hgroups hoverflow.2
    | ok r =>
      have hjudge : judge (v.subject host) ⟨t, r.1, _, seed, iteration⟩ call = _ :=
        judge_of_generate hv hhost hshape hrun seed iteration call
      dsimp only
      rw [hjudge]
      exact ih (iteration + 1) (call + 1)

theorem passes_tryTest (entropy call : ℕ) :
    PassesOrExhausts (tryTest t (v.subject host) entropy call).result := by
  rw [tryTest, tryTestFrom, TestCase.validate_eq_ok_iff.mpr h]
  exact passes_runIterations hv hhost hshape h hreduction ..

end Oracle

/-! ## Depths -/

namespace Scenario

variable {t : TileShape} {s : Scenario} {c : TestCase}

theorem le_of_mem_depths (hkb : 0 < t.kBlock) {k : ℕ} (hk : k ∈ s.depths t) :
    k ≤ 10 * t.kBlock := by
  rcases depths_cases t s with h | h | h | h | h <;> rw [h] at hk
  · have hsweep := (le_of_mem_kSweep hk).2
    omega
  · have hbelow := (mem_upTo.mp hk).2
    omega
  · have habove := (mem_upTo.mp hk).2
    split_ifs at habove <;> omega
  · unfold kMultiples at hk
    split_ifs at hk
    · obtain ⟨i, hi, rfl⟩ := List.mem_range'.mp hk
      have hblocks : t.kBlock * i ≤ t.kBlock * 8 := Nat.mul_le_mul_left _ (Nat.le_of_lt_succ hi)
      omega
    · cases hk
  · rw [List.mem_singleton.mp hk]
    omega

/-- The scenario on padding rows has the shapes and the reductions of the one on offsets. -/
theorem exists_ne_zero (hc : c ∈ s.testCases t) : ∃ s' ≠ zero, ∃ b ∈ s'.testCases t,
    c.shape = b.shape ∧ c.ks = b.ks ∧ c.k = b.k := by
  by_cases hs : s = zero
  · subst hs
    obtain ⟨z, -, b, hb, rfl⟩ := mem_testCases_zero.mp hc
    exact ⟨aOffset, by decide, b, hb, rfl, rfl, rfl⟩
  · exact ⟨s, hs, c, hc, rfl, rfl, rfl⟩

theorem shape_of_mem_testCases (hc : c ∈ s.testCases t) : c.shape = t := by
  obtain ⟨s', hs', b, hb, hshape, -⟩ := exists_ne_zero hc
  exact hshape.trans (shape_of_ne_zero hs' hb)

theorem ks_le_of_ne_zero (hs : s ≠ zero) (hc : c ∈ s.testCases t) : c.ks ≤ 3 := by
  rw [testCases_eq_map t hs] at hc
  obtain ⟨b, hgrid, rfl⟩ := List.mem_map.mp hc
  obtain ⟨n, -, k, -, m, -, rfl⟩ := mem_grid.mp hgrid
  cases s <;> simp [adjust, base]

theorem reduction_le_of_mem (hkb : 0 < t.kBlock) (hc : c ∈ s.testCases t) :
    c.ks * c.k ≤ 3 * (10 * t.kBlock) := by
  obtain ⟨s', hs', b, hb, -, hks, hk⟩ := exists_ne_zero hc
  rw [hks, hk]
  exact Nat.mul_le_mul (ks_le_of_ne_zero hs' hb)
    (le_of_mem_depths hkb (sizes_mem_of_mem_testCases hs' hb).2.1)

end Scenario

theorem Variant.kBlock_le {v : Variant} (hv : v ∈ catalogue) : v.shape.kBlock ≤ 8 := by
  revert v
  decide

/-! ## Scenarios -/

namespace Scenario

variable {v : Variant} (hv : v ∈ Variant.catalogue) {host : Capabilities}
  (hhost : host.supports v.isa)

include hv hhost

theorem passes_runAll {cases : List TestCase} {entropy : ℕ → ℕ} {call : ℕ}
    (hcases : ∀ c ∈ cases, c.shape = v.shape ∧ c.Valid ∧ c.ks * c.k ≤ maxReduction) :
    PassesOrExhausts (runAll (v.subject host) entropy cases call).result := by
  induction cases generalizing entropy call with
  | nil => exact Or.inl rfl
  | cons c rest ih =>
    obtain ⟨⟨hshape, h, hreduction⟩, hrest⟩ := List.forall_mem_cons.mp hcases
    rw [runAll]
    rcases Oracle.passes_tryTest hv hhost hshape h hreduction (entropy 0) call with hok | herror
    · rw [hok]
      exact ih hrest
    · rw [herror]
      exact Or.inr herror

/-- **The catalogue passes its scenarios** on all hosts that run it, as long as the redraws do. -/
theorem passes_run (s : Scenario) (settings : Settings) (entropy : ℕ → ℕ) :
    PassesOrExhausts (s.run v.shape (v.subject host) settings entropy).result := by
  obtain ⟨hmr, hnr, hkr, hsr⟩ := Variant.shape_pos hv
  refine passes_runAll hv hhost fun c hc ↦ ?_
  obtain ⟨b, hb, rfl⟩ := List.mem_map.mp hc
  have hvalid : b.Valid := valid_of_mem_testCases hmr hnr hkr hsr hb
  have hshape : b.shape = v.shape := shape_of_mem_testCases hb
  refine ⟨hshape, { hvalid with }, ?_⟩
  calc b.ks * b.k ≤ 3 * (10 * v.shape.kBlock) :=
        reduction_le_of_mem (TileShape.kBlock_pos hkr hsr) hb
    _ ≤ 3 * (10 * 8) := by have hblock := Variant.kBlock_le hv; omega
    _ ≤ maxReduction := by decide

end Scenario

end QuantizedGemm
