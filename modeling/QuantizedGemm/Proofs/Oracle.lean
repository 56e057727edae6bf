import QuantizedGemm.Proofs.Oracle.Sites

/-!
# The catalogue passes the oracle

The oracle computes its accumulators from the plain operands, the kernels theirs from packed weights
through an indirection. Both are the accumulators of the filter, and the stage of every variant is
its reference, so that no variant of the catalogue can fail a valid test case.

## One problem

What a kernel makes of a sound problem follows from its soundness alone
(`Problem.Sound.exists_output`). A problem that was generated is sound, its weights are packed, and
its accumulators are the sums over its plain operands, so that nothing is left to go wrong in its
iteration (`Problem.PassedBy`).

## A run

Groups of the catalogue are short, so that every iteration of a run whose drawings end has a
problem. The run ends well because each of its iterations does.
-/

namespace QuantizedGemm

theorem TestCase.groupsFit_of_mem {v : Variant} (hv : v ∈ Variant.catalogue) {t : TestCase}
    (hshape : t.shape = v.shape) : t.GroupsFit := by
  have hkr := Variant.kr_le hv
  have hzero := t.aZeroPoint.toNat_lt
  rw [TestCase.GroupsFit, hshape]
  calc v.shape.kr * 255 * max 1 t.aZeroPoint.toNat
      ≤ 8 * 255 * 255 := Nat.mul_le_mul (Nat.mul_le_mul_right 255 hkr) (by omega)
    _ ≤ 2147483647 := by decide

namespace Problem

/-- An iteration in which nothing fails. The weights of its problem are packed, parameters are
derived from the quantization of its accumulators, the kernel takes the call, and every output is
the reference of an accumulator that is summed up from the plain operands. -/
structure PassedBy (v : Variant) (host : Capabilities) (t : TestCase) (p : Problem) : Prop where
  packed : (⟨t.filterShape, p.weights, some p.bias⟩ : Filter).pack v.shape
    ⟨t.aZeroPoint, t.bZeroPoint⟩ (Array.replicate (v.shape.packedSize t.filterShape) t.bZeroPoint) =
      .ok p.packed
  exists_output : let q := OutputQuantization.ofAccumulators p.accumulators.toList
    ∃ params output, v.derive ⟨t.bZeroPoint, q.scale, q.zeroPoint, t.qmin, t.qmax⟩ = .ok params ∧
      v.kernel host (p.call params) (Array.replicate p.outputLength fillByte) = .ok () output ∧
      ∀ i < t.m, ∀ j < t.n,
        let acc := accumulator t p.view.input p.view.rows p.weights p.bias i j
        p.accumulators[i * t.n + j]? = some acc ∧ output[p.outputPosition i j]? =
          some (v.reference acc q.scale q.zeroPoint t.qmin t.qmax)

section Kernel

variable {v : Variant} {host : Capabilities} {t : TestCase} {p : Problem}

theorem Sound.admits_call (hp : p.Sound t) (h : t.Valid) (params : Params) {size : ℕ}
    (hsize : p.outputLength ≤ size) : t.shape.Admits (p.call params) size := by
  obtain ⟨f, target, hshape, hpack, -⟩ := hp.accumulators
  have hpacked := Filter.packedSize_le_size_pack hpack
  rw [hshape] at hpacked
  constructor
  case mr_pos => simpa [Problem.call, hp.m_eq] using h.m_pos
  case mr_le => simpa [Problem.call, hp.m_eq] using h.m_le
  case nc_pos => simpa [Problem.call, hp.n_eq] using h.n_pos
  case kc_pos => simpa [Problem.call, hp.k_eq] using h.k_pos
  case ks_pos => simpa [Problem.call, hp.ks_eq] using h.ks_pos
  case rows => simpa [Problem.call, hp.ks_eq, hp.k_eq] using hp.rows
  case weights =>
    simpa [Problem.call, TestCase.filterShape, hp.n_eq, hp.ks_eq, hp.k_eq] using hpacked
  case output => simpa [Problem.call, Problem.outputLength, hp.shape_eq] using hsize

/-- On a sound problem a variant writes the references of the accumulators. -/
theorem Sound.exists_output (hp : p.Sound t) (h : t.Valid) (hv : v ∈ Variant.catalogue)
    (hhost : host.supports v.isa) (hshape : t.shape = v.shape) {a : QuantizationArgs}
    {params : Params} (hderive : v.derive a = .ok params) (hzero : a.kernelZeroPoint = t.bZeroPoint)
    {c : Bytes} (hc : p.outputLength ≤ c.size) :
    ∃ output, v.kernel host (p.call params) c = .ok () output ∧ ∀ i < t.m, ∀ j < t.n, ∃ acc,
      p.accumulators[i * t.n + j]? = some acc ∧ output[p.outputPosition i j]? =
        some (v.reference acc a.scale a.outputZeroPoint a.outputMin a.outputMax) := by
  obtain ⟨f, target, hfilter, hpack, haccumulators⟩ := hp.accumulators
  have hadmits : v.shape.Admits (p.call params) c.size := hshape ▸ hp.admits_call h params hc
  have hstrides := hp.stridesDisjoint h
  rw [hp.shape_eq, hshape] at hstrides
  rw [hshape] at hpack haccumulators
  have hcall : f.toFilterShape =
      ⟨(p.call params).nc, (p.call params).ks, (p.call params).kc⟩ := by
    simp [hfilter, TestCase.filterShape, Problem.call, hp.n_eq, hp.ks_eq, hp.k_eq]
  refine ⟨_, Variant.kernel_eq_ok hv hhost hderive hadmits hstrides.1, fun i hi j hj ↦
    ⟨_, haccumulators i hi j hj, ?_⟩⟩
  have hrow : i < (p.call params).mr := by simpa [Problem.call, hp.m_eq] using hi
  have hcolumn : j < (p.call params).nc := by simpa [Problem.call, hp.n_eq] using hj
  have hcolour := Variant.colour_of_pack hpack hcall hadmits hzero hrow hcolumn
  rw [outputPosition, hp.shape_eq, hshape]
  exact (TileShape.getElem?_paint (Variant.shape_pos hv).2.1 hstrides hrow hcolumn
    hadmits.output).trans (congrArg some hcolour)

/-- Nothing fails on a problem that was generated. -/
theorem passedBy_of_generateNth {σ : Type} [WordSource σ] {attempts i : ℕ} {source source' : σ}
    (hrun : (generateNth attempts t i).run source = .ok (p, source'))
    (hv : v ∈ Variant.catalogue) (hhost : host.supports v.isa) (hshape : t.shape = v.shape) :
    p.PassedBy v host t := by
  obtain ⟨h, o, packed, hdraw, hpack, rfl⟩ := exists_drawNth hrun
  have ho := (Operands.yields_drawNth attempts _ _ _ _ i).of_run_eq_ok hdraw
  have hp := Operands.sound_problem h ho hpack
  refine ⟨hshape ▸ hpack, ?_⟩
  intro q
  obtain ⟨params, hderive⟩ := v.family.exists_derive
    (QuantizationArgs.validate_maxScale (OutputQuantization.validate_ofAccumulators
      (a := ⟨t.bZeroPoint, q.scale, q.zeroPoint, t.qmin, t.qmax⟩) rfl h.range) v.family)
  obtain ⟨output, hkernel, hout⟩ := hp.exists_output h hv hhost hshape hderive rfl
    (c := (o.problem t packed).freshOutput) Array.size_replicate.ge
  refine ⟨params, output, hderive, hkernel, fun i hi j hj ↦ ?_⟩
  obtain ⟨acc, hacc, hbyte⟩ := hout i hi j hj
  have hsum : (o.problem t packed).accumulators[i * t.n + j]? = _ := getElem?_accumulatorsOf hi hj
  obtain rfl := Option.some_inj.mp (hacc.symm.trans hsum)
  exact ⟨hsum, hbyte⟩

end Kernel

end Problem

namespace Oracle

theorem Site.Drawn.passes {s : Site} {t : TestCase} {seed iteration : ℕ}
    (hs : s.Drawn t seed iteration) {v : Variant} {host : Capabilities}
    (h : s.problem.PassedBy v host t) (call : ℕ) :
    s.Passes v.reference (s.outcome (v.subject host) call) := by
  obtain ⟨params, output, hderive, hkernel, hout⟩ := h.exists_output
  rw [← hs.quantization, ← hs.args_eq] at hderive
  have hsubject : (v.subject host).derive s.args = .ok params := hderive
  have houtcome : s.outcome (v.subject host) call = .ok () output :=
    (Site.outcome_eq hsubject call).trans hkernel
  rw [houtcome]
  intro i hi j hj
  rw [hs.testCase] at hi hj
  obtain ⟨hacc, hbyte⟩ := hout i hi j hj
  rw [← hs.quantization] at hbyte
  rw [Site.Agrees, hs.testCase]
  exact ⟨_, hacc, hbyte⟩

/-- **No variant of the catalogue can fail the oracle.** Whatever the words are that a valid test
case of the variant's shape draws its operands from, the run ends with every iteration passed, as
long as the drawings end and the host runs the variant: each problem is generated and packed, its
quantization is accepted, the kernel succeeds, and each of its outputs is the reference of the
accumulator. -/
theorem catalogue_passes {σ : Type} [WordSource σ] {v : Variant} (hv : v ∈ Variant.catalogue)
    {host : Capabilities} (hhost : host.supports v.isa) {t : TestCase} (hshape : t.shape = v.shape)
    (hvalid : t.validate = .ok ()) (hreduction : t.ks * t.k ≤ maxReduction) {attempts : ℕ}
    {source : σ} (hdraws : drawsEnd attempts t t.effectiveIterations source) (seed call : ℕ) :
    tryTestFrom attempts t (v.subject host) seed call source =
        ⟨call + t.effectiveIterations, .ok ()⟩ ∧
      ∀ i < t.effectiveIterations, ∃ p source',
        (Problem.generateNth attempts t i).run source = .ok (p, source') ∧
          p.PassedBy v host t := by
  have h := TestCase.validate_eq_ok_iff.mp hvalid
  set sites := drawSites attempts t seed t.effectiveIterations 0 source
  have hlength : sites.length = t.effectiveIterations :=
    length_drawSites h hreduction hdraws (TestCase.groupsFit_of_mem hv hshape)
  have hdrawn : ∀ k s, sites[k]? = some s → s.Drawn t seed k ∧ ∃ source',
      (Problem.generateNth attempts t k).run source = .ok (s.problem, source') := by
    intro k s hk
    have hs := drawn_of_mem hk
    rwa [Nat.zero_add] at hs
  constructor
  · have hrun : runIterations attempts t (v.subject host) seed t.effectiveIterations 0 call source =
        runSites _ _ sites call :=
      runIterations_eq_runSites h hreduction (fun s k hs ↦ hs.exists_derive h v) hdraws
    rw [tryTestFrom, hvalid]
    refine hrun.trans (runSites_eq_ok_iff.mpr ⟨fun k s hk ↦ ?_, ?_, ?_⟩)
    · obtain ⟨hs, source', hgenerate⟩ := hdrawn k s hk
      have hpassed := Problem.passedBy_of_generateNth hgenerate hv hhost hshape
      exact Site.checkOutcome_of_passes (hs.inRange h v.strategy) (hs.passes hpassed _)
    · exact if_pos hlength
    · rw [hlength]
  · intro i hi
    rw [← hlength] at hi
    obtain ⟨-, source', hgenerate⟩ := hdrawn i _ (List.getElem?_eq_getElem hi)
    exact ⟨_, source', hgenerate, Problem.passedBy_of_generateNth hgenerate hv hhost hshape⟩

/-- Two iterations of a part of a tile, with a padding row and a displaced input. -/
def sampleTestCase : TestCase where
  shape := ⟨3, 4, 8, 1⟩
  m := 2
  n := 5
  k := 3
  ks := 2
  aOffset := 1
  zeroIndex := some 0
  iterations := 2

/-- Both problems are generated, and passed. -/
theorem sampleTestCase_passes :
    tryTestFrom defaultAttempts sampleTestCase
        ((Variant.vector (FourColumn.microkernel .sse41 3)).subject (.x86Host 1)) 1 0
        (ChaCha.Stream.ofSeed 1) = ⟨2, .ok ()⟩ ∧
      ∃ p source', (Problem.generateNth defaultAttempts sampleTestCase 1).run
          (ChaCha.Stream.ofSeed 1) = .ok (p, source') ∧
        p.PassedBy (.vector (FourColumn.microkernel .sse41 3)) (.x86Host 1) sampleTestCase := by
  have hv : .vector (FourColumn.microkernel .sse41 3) ∈ Variant.catalogue :=
    List.mem_append_left _ (by simp [Variant.vectorVariants])
  have hhost : (Capabilities.x86Host 1).supports .sse41 := by decide
  have hdraws : drawsEnd defaultAttempts sampleTestCase sampleTestCase.effectiveIterations
      (ChaCha.Stream.ofSeed 1) := by decide +kernel
  obtain ⟨hverdict, hiterations⟩ :=
    catalogue_passes hv hhost rfl (by decide +kernel) (by decide) hdraws 1 0
  exact ⟨hverdict, hiterations 1 (by decide)⟩

end Oracle

end QuantizedGemm
