import QuantizedGemm.Proofs.Oracle
import QuantizedGemm.Proofs.OutputQuantization.ZeroPoint
import QuantizedGemm.Proofs.Refusals

/-!
# The oracle's own quantization

The oracle derives a scale and a zero point from the accumulators of each problem. Every family
takes them, so that a run ends with a refused quantization only if the kernel itself refuses one
(`Oracle.raises_of_tryTestFrom`).

## References on derived scales

The oracle asks its reference about such scales only, so that references that agree on them give
every kernel the same verdict (`Oracle.tryTestFrom_congr`). On them nothing is lost in fixed point:
the fixed-point reference agrees with one that rounds the exact product (`requantizeExactly`).

## One site and many

What is said of a run is said of one site first, and then shown by induction on the iterations that
are left.
-/

namespace QuantizedGemm

/-- The exact product, rounded with halves up and held in the output range. -/
def requantizeExactly : Requantizer := fun input scale zeroPoint lower upper ↦
  UInt8.ofInt (clampedOutput zeroPoint lower upper (roundHalfUp (input.toInt * scale.toRat)))

/-- References that agree on the scales that all families take. -/
def AgreeBelowOne (reference reference' : Requantizer) : Prop :=
  ∀ (input : Int32) (scale : Binary32) (zeroPoint lower upper : UInt8),
    (2 : ℚ) ^ (-32 : ℤ) ≤ scale.toRat → scale.toRat < 1 → lower ≤ upper →
      reference input scale zeroPoint lower upper = reference' input scale zeroPoint lower upper

theorem agreeBelowOne_requantizeRndnu : AgreeBelowOne requantizeRndnu requantizeExactly := by
  intro input scale zeroPoint lower upper hlow hhigh h
  have hbyte : ((requantizeRndnu input scale zeroPoint lower upper).toNat : ℤ) = _ :=
    toNat_requantizeRndnu hlow hhigh h
  have hlt := (requantizeRndnu input scale zeroPoint lower upper).toNat_lt
  refine UInt8.toNat_inj.mp (Int.ofNat_inj.mp ?_)
  rw [requantizeExactly, ← hbyte, toNat_ofInt (by omega) (by omega)]

/-- A failure that some call of the subject's kernel ends with. -/
def Subject.Raises (subject : Subject) (e : Failure) : Prop :=
  ∃ (number : ℕ) (call : Call) (b b' : Bytes), subject.kernel number call b = .error e b'

namespace Oracle

/-! ## One site -/

section Site

variable {s : Site} {subject : Subject} {reference reference' : Requantizer} {e : Failure}

theorem Site.not_from_quantization_of_checkOutput {output : Bytes}
    (h : s.checkOutput reference output = .error e) : ¬e.From .quantization := by
  obtain ⟨i, -, -, j, -, -, helement⟩ := checkOutput_eq_error_iff.mp h
  unfold checkElement at helement
  split at helement
  · cases helement
    exact Failure.not_from_fault _ _
  · dsimp only at helement
    split_ifs at helement
    all_goals
      cases helement
      rw [Failure.from_refused_iff]
      exact nofun

/-- Where the parameters exist, only the kernel can refuse a quantization. -/
theorem raises_of_judge {params : Params} (hderive : subject.derive s.args = .ok params) {call : ℕ}
    (h : (judge subject s call).result = .error e) (he : e.From .quantization) :
    subject.Raises e := by
  rw [judge_eq hderive, Site.outcome_eq hderive] at h
  cases hkernel : subject.kernel call (s.problem.call params) s.problem.freshOutput with
  | ok _ output =>
    rw [hkernel] at h
    exact absurd he (Site.not_from_quantization_of_checkOutput h)
  | error e' output =>
    rw [hkernel] at h
    cases h
    exact ⟨call, _, _, output, hkernel⟩

/-- A site is judged by the outputs that the reference expects there. -/
theorem judge_congr (kernel : ℕ → Kernel) (derive : QuantizationArgs → Except Error Params)
    (h : ∀ i < s.testCase.m, ∀ j < s.testCase.n,
      s.expected reference i j = s.expected reference' i j) (call : ℕ) :
    judge ⟨kernel, derive, reference⟩ s call = judge ⟨kernel, derive, reference'⟩ s call := by
  have houtput : ∀ output, s.checkOutput reference output = s.checkOutput reference' output := by
    intro output
    refine forM_range_congr fun i hi ↦ forM_range_congr fun j hj ↦ ?_
    rw [Site.checkElement, Site.checkElement, h i hi j hj]
  unfold judge
  simp only [houtput]

end Site

namespace Site.Drawn

variable {s : Site} {t : TestCase} {seed iteration : ℕ} (hs : s.Drawn t seed iteration)
  (h : t.Valid)

include hs h

/-- A drawn site asks about a scale below one. -/
theorem expected_congr {reference reference' : Requantizer}
    (hagree : AgreeBelowOne reference reference') (i j : ℕ) :
    s.expected reference i j = s.expected reference' i j := by
  obtain ⟨-, hlow, hhigh, hrange⟩ := (QuantizationArgs.validate_eq_ok_iff_toRat
    QuantizationArgs.toRat_maxFixedScale).mp (hs.validate_args h)
  exact hagree _ _ _ _ _ hlow hhigh hrange

end Site.Drawn

/-! ## Runs -/

section Run

variable {σ : Type} [WordSource σ] {attempts seed : ℕ} {t : TestCase}

theorem raises_of_runIterations {subject : Subject} {f : Family} (hf : subject.derive = f.derive)
    {e : Failure} (he : e.From .quantization) {remaining iteration call : ℕ} {source : σ}
    (h : (runIterations attempts t subject seed remaining iteration call source).result =
      .error e) : subject.Raises e := by
  induction remaining generalizing iteration call source with
  | zero => cases h
  | succ remaining ih =>
    rw [runIterations] at h
    cases hrun : (Problem.generate attempts t).run source with
    | error e' =>
      rw [hrun] at h
      cases h
      exact absurd he (Problem.not_from_quantization_of_generate hrun)
    | ok r =>
      obtain ⟨hvalid, hdrawn⟩ := drawn_of_generate seed iteration hrun
      obtain ⟨params, hparams⟩ := hdrawn.exists_derive_family hvalid f
      rw [hrun] at h
      dsimp only at h
      cases hjudge : (judge subject ⟨t, r.1, r.1.quantization, seed, iteration⟩ call).result with
      | error e' =>
        rw [hjudge] at h
        exact raises_of_judge (hf ▸ hparams) h he
      | ok _ =>
        rw [hjudge] at h
        exact ih h

theorem raises_of_tryTestFrom {subject : Subject} {f : Family} (hf : subject.derive = f.derive)
    {e : Failure} (he : e.From .quantization) {call : ℕ} {source : σ}
    (h : (tryTestFrom attempts t subject seed call source).result = .error e) :
    subject.Raises e := by
  rw [tryTestFrom] at h
  cases hvalidate : t.validate with
  | error cause =>
    rw [hvalidate] at h
    cases h
    rw [Failure.from_refused_iff, t.refusesIn_validate cause hvalidate] at he
    cases he
  | ok _ =>
    rw [hvalidate] at h
    exact raises_of_runIterations hf he h

section Agree

variable {reference reference' : Requantizer} (hagree : AgreeBelowOne reference reference')
  (kernel : ℕ → Kernel) (derive : QuantizationArgs → Except Error Params)

include hagree

theorem runIterations_congr (remaining iteration call : ℕ) (source : σ) :
    runIterations attempts t ⟨kernel, derive, reference⟩ seed remaining iteration call source =
      runIterations attempts t ⟨kernel, derive, reference'⟩ seed remaining iteration call
        source := by
  induction remaining generalizing iteration call source with
  | zero => rfl
  | succ remaining ih =>
    rw [runIterations, runIterations]
    cases hrun : (Problem.generate attempts t).run source with
    | error e => rfl
    | ok r =>
      obtain ⟨hvalid, hdrawn⟩ := drawn_of_generate seed iteration hrun
      have hjudge := judge_congr kernel derive
        (fun i _ j _ ↦ hdrawn.expected_congr hvalid hagree i j) call
      dsimp only
      rw [hjudge]
      simp only [ih]

/-- The oracle asks its reference about scales below one only. -/
theorem tryTestFrom_congr (call : ℕ) (source : σ) :
    tryTestFrom attempts t ⟨kernel, derive, reference⟩ seed call source =
      tryTestFrom attempts t ⟨kernel, derive, reference'⟩ seed call source := by
  rw [tryTestFrom, tryTestFrom]
  simp only [runIterations_congr hagree]

end Agree

end Run

/-- **A derived quantization is always accepted.** Whatever the accumulators are, the scale is a
number from `2 ^ -32` to below one, and the zero point is the integer nearest to a number, held in
the range of a byte. With any kernel zero point and any output range every family derives parameters
from them, and the fixed-point reference is exact on every accumulator, as it is for all scales of
this kind.

A run that ends with a refused quantization therefore ends with a refusal of the kernel's own, and
kernels of the catalogue have none. Beyond those scales no run depends on its reference. -/
theorem derived_quantization_accepted :
    (∀ accumulators : List Int32,
      let q := OutputQuantization.ofAccumulators accumulators
      let center := OutputQuantization.centerOf accumulators
      (q.scale.isFinite ∧ (2 : ℚ) ^ (-32 : ℤ) ≤ q.scale.toRat ∧ q.scale.toRat < 1) ∧
      (center.isFinite ∧
        (q.zeroPoint.toNat : ℤ) = min (max (roundHalfEven center.toRat) 0) 255) ∧
      ∀ lower upper : UInt8, lower ≤ upper →
        (∀ (f : Family) (kernelZeroPoint : UInt8), ∃ params,
          f.derive ⟨kernelZeroPoint, q.scale, q.zeroPoint, lower, upper⟩ = .ok params) ∧
        ∀ acc : Int32, ((requantizeRndnu acc q.scale q.zeroPoint lower upper).toNat : ℤ) =
          clampedOutput q.zeroPoint lower upper (roundHalfUp (acc.toInt * q.scale.toRat))) ∧
    AgreeBelowOne requantizeRndnu requantizeExactly ∧
    ∀ {σ : Type} [WordSource σ] (attempts seed call : ℕ) (t : TestCase) (source : σ),
      (∀ (kernel : ℕ → Kernel) (f : Family) (reference : Requantizer) (cause : QuantizationError),
        (tryTestFrom attempts t ⟨kernel, f.derive, reference⟩ seed call source).result =
            .error (.refused (.quantization cause)) →
          ∃ (number : ℕ) (call : Call) (b b' : Bytes),
            kernel number call b = .error (.refused (.quantization cause)) b') ∧
      (∀ v ∈ Variant.catalogue, ∀ (host : Capabilities) (cause : QuantizationError),
        (tryTestFrom attempts t (v.subject host) seed call source).result ≠
          .error (.refused (.quantization cause))) ∧
      ∀ (kernel : ℕ → Kernel) (f : Family) (reference reference' : Requantizer),
        AgreeBelowOne reference reference' →
          tryTestFrom attempts t ⟨kernel, f.derive, reference⟩ seed call source =
            tryTestFrom attempts t ⟨kernel, f.derive, reference'⟩ seed call source := by
  refine ⟨fun accumulators ↦ ?_, agreeBelowOne_requantizeRndnu,
    fun attempts seed call t source ↦ ?_⟩
  · intro q center
    have hscale := OutputQuantization.scale_between accumulators
    have hlow : (2 : ℚ) ^ (-32 : ℤ) ≤ q.scale.toRat := le_trans (by norm_num) hscale.le_toRat
    have hhigh : q.scale.toRat < 1 := lt_of_le_of_lt hscale.toRat_le (by norm_num)
    have hcenter := OutputQuantization.centerOf_within accumulators
    refine ⟨⟨hscale.isFinite, hlow, hhigh⟩,
      ⟨hcenter.isFinite, OutputQuantization.toNat_zeroPoint accumulators⟩,
      fun lower upper hrange ↦ ⟨fun f kernelZeroPoint ↦ ?_, fun acc ↦ ?_⟩⟩
    · refine f.exists_derive (QuantizationArgs.validate_maxScale ?_ f)
      exact OutputQuantization.validate_ofAccumulators rfl hrange
    · exact toNat_requantizeRndnu hlow hhigh hrange
  · have hquantization : ∀ cause : QuantizationError,
        (Failure.refused (.quantization cause)).From .quantization :=
      fun _ ↦ Failure.from_refused_iff.mpr rfl
    refine ⟨fun kernel f reference cause h ↦ ?_, fun v hv host cause h ↦ ?_,
      fun kernel f reference reference' hagree ↦ ?_⟩
    · exact raises_of_tryTestFrom (f := f) rfl (hquantization cause) h
    · obtain ⟨number, kernelCall, b, b', hkernel⟩ :=
        raises_of_tryTestFrom (f := v.family) rfl (hquantization cause) h
      exact Variant.not_from_quantization_of_kernel hv hkernel (hquantization cause)
    · exact tryTestFrom_congr hagree kernel f.derive call source

/-- Accumulators as far apart as 32 bits allow. -/
def spanningAccumulators : List Int32 := [Int32.minValue, Int32.maxValue]

def refusingKernel (_ : ℕ) : Kernel := fun _ ↦ throw (.refused (.quantization (.invalidRange 9 8)))

theorem spanningAccumulators_accepted :
    let q := OutputQuantization.ofAccumulators spanningAccumulators
    let v := Variant.vector (FourColumn.microkernel .sse41 3)
    let source := ChaCha.Stream.ofSeed 1
    ((∃ params, Family.rndnu.derive ⟨7, q.scale, q.zeroPoint, 10, 250⟩ = .ok params) ∧
      ((requantizeRndnu Int32.minValue q.scale q.zeroPoint 10 250).toNat : ℤ) =
        clampedOutput q.zeroPoint 10 250 (roundHalfUp (Int32.minValue.toInt * q.scale.toRat))) ∧
    (∃ number call b b', refusingKernel number call b =
      .error (.refused (.quantization (.invalidRange 9 8))) b') ∧
    (∀ cause,
      (tryTestFrom defaultAttempts sampleTestCase (v.subject (.x86Host 1)) 1 0 source).result ≠
      .error (.refused (.quantization cause))) ∧
    tryTestFrom defaultAttempts sampleTestCase
        ⟨fun _ ↦ v.kernel (.x86Host 1), Family.simd.derive, requantizeRndnu⟩ 1 0 source =
      tryTestFrom defaultAttempts sampleTestCase
        ⟨fun _ ↦ v.kernel (.x86Host 1), Family.simd.derive, requantizeExactly⟩ 1 0 source := by
  intro q v source
  obtain ⟨hderived, hagree, hrun⟩ := derived_quantization_accepted
  obtain ⟨-, -, haccepted⟩ := hderived spanningAccumulators
  obtain ⟨hparams, hexact⟩ := haccepted 10 250 (by decide)
  obtain ⟨hraises, hcatalogue, hcongr⟩ := hrun defaultAttempts 1 0 sampleTestCase source
  refine ⟨⟨hparams .rndnu 7, hexact Int32.minValue⟩, ?_, ?_, ?_⟩
  · exact hraises refusingKernel .simd requantizeFp32 _ (by decide +kernel)
  · have hv : v ∈ Variant.catalogue :=
      List.mem_append_left _ (by simp [v, Variant.vectorVariants])
    exact hcatalogue v hv (.x86Host 1)
  · exact hcongr _ _ _ _ hagree

end Oracle

end QuantizedGemm
