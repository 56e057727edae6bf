import QuantizedGemm.Proofs.Oracle
import QuantizedGemm.Proofs.Problem.Layout

/-!
# What the drawing does not depend on

Test cases that differ in offsets, strides or output ranges present the same problem in different
ways. This file says what they have in common in every iteration of a run.

## Drawing

The operands of a problem are drawn from the sizes of the tile's rows, the columns and the reduction
(`Operands.draw`), and from nothing else of the test case. By induction on the iteration, a run
draws the operands of its iterations from these sizes (`exists_drawNth`). So two test cases of the
same sizes draw the same operands in every iteration, and leave the source in the same state.

## Putting together

A problem is then put together without further words. An offset displaces the arena by as much as
the view adds to every position (`IndirectView.fetch?_displaced`), strides place outputs that are
computed without them, and the output range comes in with the parameters only. So test cases that
differ in no more than these make the same problem, up to the place of its rows and outputs
(`Problem.Relocated`), and every kernel computes the same outputs for it.
-/

namespace QuantizedGemm

open Draw

/-! ## Displaced arenas -/

/-- An arena that is displaced by as much as the offset reads the same. -/
theorem IndirectView.fetch?_displaced (rows : Array IndirectRow) (before input zero : Bytes)
    (index kc : ℕ) :
    (⟨rows, before ++ input, zero, before.size⟩ : IndirectView).fetch? index kc =
      (⟨rows, input, zero, 0⟩ : IndirectView).fetch? index kc := by
  cases hr : rows[index]? with
  | none => simp [fetch?, hr]
  | some r =>
    rw [fetch?_eq (v := ⟨rows, _, _, _⟩) hr, fetch?_eq (v := ⟨rows, _, _, _⟩) hr]
    cases r with
    | zero => rfl
    | input position =>
      have hextract : (before ++ input).extract (position + before.size)
          (position + before.size + kc) = input.extract position (position + kc) := by
        rw [Array.extract_append, Array.extract_empty_of_size_le_start (by omega),
          Array.empty_append, Nat.add_sub_cancel,
          show position + before.size + kc - before.size = position + kc by omega]
      simp only [source, Array.size_append, Nat.add_zero, hextract]
      exact if_congr (by omega) rfl rfl

/-! ## Test cases -/

namespace TestCase

/-- Test cases whose operands have the same sizes. -/
structure SameSizes (t t' : TestCase) : Prop where
  mr : t'.shape.mr = t.shape.mr
  n : t'.n = t.n
  k : t'.k = t.k
  ks : t'.ks = t.ks

/-- Test cases that differ in the offset, the strides, the output range, and in how often and from
which seed they are run, at most. -/
structure SameProblem (t t' : TestCase) : Prop where
  shape : t'.shape = t.shape
  m : t'.m = t.m
  n : t'.n = t.n
  k : t'.k = t.k
  ks : t'.ks = t.ks
  zeroIndex : t'.zeroIndex = t.zeroIndex
  aZeroPoint : t'.aZeroPoint = t.aZeroPoint
  bZeroPoint : t'.bZeroPoint = t.bZeroPoint

end TestCase

namespace Problem

/-! ## Iterations -/

/-- A problem that a test case makes of operands. -/
structure Uses (p : Problem) (t : TestCase) (o : Operands) : Prop where
  fits : o.Fits t.shape.mr t.n t.k t.ks
  input : p.view.input =
    Array.replicate t.aOffset fillByte ++ o.activations ++ Array.replicate t.k fillByte
  offset : p.view.offset = t.aOffset
  rows : p.view.rows = assignRows t o.order
  weights : p.weights = o.weights
  bias : p.bias = o.bias

/-- Problems that differ in where their rows and their outputs lie, at most. -/
structure Relocated (p p' : Problem) : Prop where
  shape : p'.shape = p.shape
  m : p'.m = p.m
  n : p'.n = p.n
  k : p'.k = p.k
  ks : p'.ks = p.ks
  rows : p'.view.rows = p.view.rows
  zero : p'.view.zero = p.view.zero
  /-- Only the fill in front of the rows differs in length. -/
  input : ∃ rest, p.view.input = Array.replicate p.view.offset fillByte ++ rest ∧
    p'.view.input = Array.replicate p'.view.offset fillByte ++ rest
  weights : p'.weights = p.weights
  bias : p'.bias = p.bias
  packed : p'.packed = p.packed
  accumulators : p'.accumulators = p.accumulators

/-- Two calls that end the same way, on buffers `c` and `c'`: with the same outputs, with the same
refusal that leaves both buffers alone, or with the same fault. -/
inductive SameEnd (p p' : Problem) (c c' : Bytes) :
    EStateM.Result Failure Bytes Unit → EStateM.Result Failure Bytes Unit → Prop
  | ok {b b' : Bytes} (h : p'.denseOutput b' = p.denseOutput b) :
    SameEnd p p' c c' (.ok () b) (.ok () b')
  | refused (e : Error) : SameEnd p p' c c' (.error (.refused e) c) (.error (.refused e) c')
  | fault (e : Fault) (b b' : Bytes) :
    SameEnd p p' c c' (.error (.fault e) b) (.error (.fault e) b')

/-- Every kernel for the tile of two problems ends the same way for both, on every host. On hosts
that run it, and with parameters that are derived, it ends well. -/
def SameOutputs (p p' : Problem) : Prop :=
  ∀ v ∈ Variant.catalogue, v.shape = p.shape → ∀ (host : Capabilities) (params : Params)
    (c c' : Bytes), c.size = p.outputLength → c'.size = p'.outputLength →
      SameEnd p p' c c' (v.kernel host (p.call params) c) (v.kernel host (p'.call params) c') ∧
      ∀ a, v.derive a = .ok params → host.supports v.isa →
        ∃ b b', v.kernel host (p.call params) c = .ok () b ∧
          v.kernel host (p'.call params) c' = .ok () b' ∧ p'.denseOutput b' = p.denseOutput b

/-! ## Problems of the same operands -/

section SameOperands

variable {t t' : TestCase} {o : Operands}

theorem uses_problem (ho : o.Fits t.shape.mr t.n t.k t.ks) (packed : Bytes) :
    (o.problem t packed).Uses t o := ⟨ho, rfl, rfl, rfl, rfl, rfl⟩

/-- The oracle adds the offset by which the arena is displaced. -/
theorem activation_arena (t : TestCase) (activations : Bytes) (r : IndirectRow) (k : ℕ) :
    activation t (arena t activations) r k = match r with
      | .input position => (activations ++ Array.replicate t.k fillByte).at0 (position + k)
      | .zero => t.aZeroPoint := by
  cases r with
  | zero => rfl
  | input position =>
    have hskip : position + t.aOffset + k - t.aOffset = position + k := by omega
    simp only [activation, arena, Bytes.at0_eq]
    rw [Array.append_assoc, Array.getElem?_append_right (by simp; omega), Array.size_replicate,
      hskip]

variable (h : t.SameProblem t')

include h

theorem assignRows_congr : assignRows t' = assignRows t := by
  funext drawn
  simp only [assignRows, assignedRow, h.shape, h.m, h.k, h.zeroIndex]

theorem pack_congr : o.pack t' = o.pack t := by
  simp only [Operands.pack, Operands.filter, TestCase.filterShape, TestCase.zeroPoints, h.shape,
    h.n, h.k, h.ks, h.aZeroPoint, h.bZeroPoint]

theorem accumulatorsOf_congr (activations : Bytes) (rows : Array IndirectRow) (weights : Bytes)
    (bias : Array Int32) :
    accumulatorsOf t' (arena t' activations) rows weights bias =
      accumulatorsOf t (arena t activations) rows weights bias := by
  simp only [accumulatorsOf, accumulator, term, activation_arena, h.shape, h.m, h.n, h.k, h.ks,
    h.aZeroPoint, h.bZeroPoint]

theorem relocated_problem (packed : Bytes) :
    (o.problem t packed).Relocated (o.problem t' packed) where
  shape := h.shape
  m := h.m
  n := h.n
  k := h.k
  ks := h.ks
  rows := congrFun (assignRows_congr h) o.order
  zero := by
    change Array.replicate t'.k t'.aZeroPoint = Array.replicate t.k t.aZeroPoint
    rw [h.k, h.aZeroPoint]
  input := by
    refine ⟨o.activations ++ Array.replicate t.k fillByte, Array.append_assoc .., ?_⟩
    exact h.k ▸ Array.append_assoc ..
  weights := rfl
  bias := rfl
  packed := rfl
  accumulators := by
    change accumulatorsOf t' _ (assignRows t' o.order) _ _ = _
    rw [assignRows_congr h]
    exact accumulatorsOf_congr h ..

end SameOperands

/-! ## Outputs of relocated problems -/

namespace Relocated

variable {p p' : Problem} (h : p.Relocated p')

include h

theorem fetch?_eq (index kc : ℕ) : p'.view.fetch? index kc = p.view.fetch? index kc := by
  obtain ⟨rest, hinput, hinput'⟩ := h.input
  have hview : ∀ q : Problem, q.view.input = Array.replicate q.view.offset fillByte ++ rest →
      q.view.fetch? index kc =
        (⟨q.view.rows, rest, q.view.zero, 0⟩ : IndirectView).fetch? index kc := by
    intro q hq
    rw [← IndirectView.fetch?_displaced q.view.rows (Array.replicate q.view.offset fillByte), ← hq,
      Array.size_replicate]
  rw [hview p hinput, hview p' hinput', h.rows, h.zero]

theorem operands_eq (params : Params) (t : TileShape) (tile : ℕ) :
    (p'.call params).operands t tile = (p.call params).operands t tile := by
  simp only [Call.operands, Problem.call, h.fetch?_eq, h.k, h.ks, h.packed]

theorem colour_eq {π : Type} (k : Microkernel π) (q : π) (params : Params) :
    k.colour q (p'.call params) = k.colour q (p.call params) := by
  funext i j
  rw [Microkernel.colour, Microkernel.colour, Microkernel.tileOutput, Microkernel.tileOutput,
    h.operands_eq]

theorem overflows_iff {π : Type} (k : Microkernel π) (q : π) (params : Params) :
    k.Overflows q (p'.call params) ↔ k.Overflows q (p.call params) := by
  have hnc : (p'.call params).nc = (p.call params).nc := h.n
  simp only [Microkernel.Overflows, h.operands_eq, hnc]

end Relocated

section Run

variable {t t' : TestCase} {p p' : Problem}

/-- A kernel that is called with a sound problem is refused where its parameters or the host are not
its own. Otherwise it overflows in a tile, or it writes its colours. -/
theorem Sound.kernel_cases {v : Variant} (hv : v ∈ Variant.catalogue) {π : Type} [ParamsFamily π]
    {k : Microkernel π} {value : π → UInt8 → Int32} {stage : π → Int32 → Except Fault UInt8}
    {sound : π → Prop} (hk : v.Implements k value stage sound) (hp : p.Sound t) (h : t.Valid)
    (hshape : v.shape = p.shape) {host : Capabilities} (hhost : host.supports v.isa)
    {params : Params} {q : π} (hget : params.get π = .ok q) {c : Bytes}
    (hc : c.size = p.outputLength) :
    (¬k.Overflows q (p.call params) ∧ ∃ b, v.kernel host (p.call params) c = .ok () b ∧
      p.denseOutput b = (List.range p.m).flatMap fun i ↦ (List.range p.n).map fun j ↦
        k.colour q (p.call params) i j) ∨
    (k.Overflows q (p.call params) ∧
      ∃ b, v.kernel host (p.call params) c = .error (.fault .overflow) b) := by
  have hnr := (Variant.shape_pos hv).2.1
  have hadmits : v.shape.Admits (p.call params) c.size := by
    rw [hshape, hp.shape_eq]
    exact hp.admits_call h params hc.ge
  have hstrides := hp.stridesDisjoint h
  have hposition : p.outputPosition =
      QuantizedGemm.outputPosition v.shape.nr p.cmStride p.cnStride := by
    funext i j
    rw [outputPosition, hshape]
  rw [← hshape] at hstrides
  rw [hk.isa_eq] at hhost
  rw [hk.shape_eq] at hadmits hstrides hnr hposition
  rw [hk.kernel_eq]
  have hroom : QuantizedGemm.outputLength (p.call params).mr (p.call params).nc k.shape.nr
      (p.call params).cmStride (p.call params).cnStride + (p.call params).overhang k.shape ≤
        c.size := by
    rw [Call.overhang_eq_zero (hstrides.1.imp_left fun hle ↦ by
      change _ ≤ p.cnStride + _ + 1
      omega)]
    exact hadmits.output
  rcases hk.accumulates.ok_or_overflows (hk.onlyOverflows q) hnr hget hhost hadmits hroom with
    ⟨hover, b, hrun⟩ | hover
  · refine Or.inl ⟨hover, b, hrun, List.flatMap_congr fun i hi ↦ List.map_congr_left fun j hj ↦ ?_⟩
    obtain ⟨-, -, rfl⟩ :=
      hk.accumulates.eq_paint_of_ok (hk.onlyOverflows q) hnr hget hhost hadmits hrun
    have hbyte : (k.shape.paint (p.call params) (k.colour q (p.call params)) c)[_]? = _ :=
      TileShape.getElem?_paint hnr hstrides (List.mem_range.mp hi) (List.mem_range.mp hj)
        hadmits.output
    rw [Bytes.at0_eq, hposition]
    exact (congrArg (Option.getD · 0) hbyte).trans Option.getD_some
  · exact Or.inr hover

theorem Sound.kernel_eq_unsupported {v : Variant} {π : Type} [ParamsFamily π] {k : Microkernel π}
    {value : π → UInt8 → Int32} {stage : π → Int32 → Except Fault UInt8} {sound : π → Prop}
    (hk : v.Implements k value stage sound) (hp : p.Sound t) (h : t.Valid)
    (hshape : v.shape = p.shape) {host : Capabilities} (hhost : host.supports v.isa = false)
    {params : Params} {q : π} (hget : params.get π = .ok q) {c : Bytes}
    (hc : c.size = p.outputLength) :
    v.kernel host (p.call params) c = .error (.refused (unsupportedHardware v.isa)) c := by
  have hadmits : v.shape.Admits (p.call params) c.size := by
    rw [hshape, hp.shape_eq]
    exact hp.admits_call h params hc.ge
  rw [hk.isa_eq] at hhost ⊢
  rw [hk.shape_eq] at hadmits
  rw [hk.kernel_eq]
  exact Microkernel.kernel_eq_unsupported hget hadmits hhost

theorem Relocated.sameOutputs (hreloc : p.Relocated p') (h : t.Valid) (h' : t'.Valid)
    (hp : p.Sound t) (hp' : p'.Sound t') : p.SameOutputs p' := by
  intro v hv hshape host params c c' hc hc'
  have hshape' : v.shape = p'.shape := hshape.trans hreloc.shape.symm
  have hend : SameEnd p p' c c' (v.kernel host (p.call params) c)
      (v.kernel host (p'.call params) c') := by
    obtain ⟨π, _, _, k, value, stage, sound, hk⟩ := Variant.exists_implements hv
    by_cases hown : params.family = v.family
    · obtain ⟨q, hget⟩ := Params.exists_get (hown.trans hk.family_eq)
      cases hhost : host.supports v.isa with
      | false =>
        rw [hp.kernel_eq_unsupported hk h hshape hhost hget hc,
          hp'.kernel_eq_unsupported hk h' hshape' hhost hget hc']
        exact .refused _
      | true =>
        have hover := hreloc.overflows_iff k q params
        rcases hp.kernel_cases hv hk h hshape hhost hget hc with
          ⟨hnot, b, hrun, hdense⟩ | ⟨hnot, b, hrun⟩ <;>
        rcases hp'.kernel_cases hv hk h' hshape' hhost hget hc' with
          ⟨hnot', b', hrun', hdense'⟩ | ⟨hnot', b', hrun'⟩
        · rw [hrun, hrun']
          exact .ok (by rw [hdense, hdense', hreloc.m, hreloc.n, hreloc.colour_eq])
        · exact absurd (hover.mp hnot') hnot
        · exact absurd (hover.mpr hnot) hnot'
        · rw [hrun, hrun']
          exact .fault ..
    · rw [hk.kernel_eq]
      rw [hk.family_eq] at hown
      have hmismatch : ∀ (p : Problem) (c : Bytes), k.kernel host (p.call params) c =
          .error (.refused (familyMismatch (ParamsFamily.family π) params.family)) c :=
        fun _ _ ↦ Microkernel.kernel_eq_mismatch hown
      rw [hmismatch, hmismatch]
      exact .refused _
  refine ⟨hend, fun a hderive hhost ↦ ?_⟩
  obtain ⟨b, hrun⟩ := hp.exists_kernel_eq_ok h hv (hshape.trans hp.shape_eq) hhost hderive hc.ge
  obtain ⟨b', hrun'⟩ :=
    hp'.exists_kernel_eq_ok h' hv (hshape'.trans hp'.shape_eq) hhost hderive hc'.ge
  rw [hrun, hrun'] at hend
  cases hend with
  | ok hdense => exact ⟨b, b', hrun, hrun', hdense⟩

end Run

/-- **Drawing does not depend on presentation.** Two runs of test cases whose operands have the same
sizes, from one state of the source, draw the same operands in every iteration that both of them
reach, and leave the source in the same state. If the test cases are the same up to the offset, the
strides, the output range and the way they are run, then so are the two problems up to the place of
their rows and outputs, and every kernel computes the same outputs for both. -/
theorem generateNth_presentation {σ : Type} [WordSource σ] {t t' : TestCase}
    (hsizes : t.SameSizes t') {attempts i : ℕ} {source s s' : σ} {p p' : Problem}
    (hrun : (generateNth attempts t i).run source = .ok (p, s))
    (hrun' : (generateNth attempts t' i).run source = .ok (p', s')) :
    s' = s ∧
    (∃ o, (Operands.drawNth attempts t.shape.mr t.n t.k t.ks i).run source = .ok (o, s) ∧
      p.Uses t o ∧ p'.Uses t' o) ∧
    (∀ seed count, i < count →
      ((Oracle.drawSites attempts t seed count 0 source)[i]?).map Oracle.Site.problem = some p ∧
      ((Oracle.drawSites attempts t' seed count 0 source)[i]?).map Oracle.Site.problem = some p') ∧
    (t.SameProblem t' → p.Relocated p' ∧ p.SameOutputs p') := by
  obtain ⟨h, o, packed, hdraw, hpack, rfl⟩ := exists_drawNth hrun
  obtain ⟨h', o', packed', hdraw', hpack', rfl⟩ := exists_drawNth hrun'
  have ho := (Operands.yields_drawNth attempts _ _ _ _ i).of_run_eq_ok hdraw
  have ho' := (Operands.yields_drawNth attempts _ _ _ _ i).of_run_eq_ok hdraw'
  -- the drawing is given the same sizes, so it has one result
  rw [hsizes.mr, hsizes.n, hsizes.k, hsizes.ks, hdraw] at hdraw'
  cases hdraw'
  refine ⟨rfl, ⟨o, hdraw, uses_problem ho packed, uses_problem ho' packed'⟩,
    fun seed count hi ↦ ⟨Oracle.getElem?_drawSites hrun hi, Oracle.getElem?_drawSites hrun' hi⟩,
    fun hsame ↦ ?_⟩
  rw [pack_congr hsame, hpack] at hpack'
  cases hpack'
  have hreloc := relocated_problem (o := o) hsame packed
  exact ⟨hreloc, hreloc.sameOutputs h h' (Operands.sound_problem h ho hpack)
    (Operands.sound_problem h' ho' (pack_congr hsame ▸ hpack))⟩

/-- Two rows and a partial last tile of columns, where the first row is padding. -/
def samplePlain : TestCase where
  shape := ⟨2, 4, 8, 1⟩
  m := 2
  n := 5
  k := 3
  ks := 2
  zeroIndex := some 0

/-- The same with displaced rows, wider strides and a narrower output range. -/
def sampleDisplaced : TestCase :=
  { samplePlain with
    aOffset := 7, givenCmStride := some 20, givenCnStride := some 6, qmin := 10, qmax := 90 }

/-- The second iterations of two runs. -/
theorem generateNth_sampleDisplaced : ∃ p p' s,
    (generateNth 1 samplePlain 1).run (ChaCha.Stream.ofSeed 3) = .ok (p, s) ∧
      (generateNth 1 sampleDisplaced 1).run (ChaCha.Stream.ofSeed 3) = .ok (p', s) ∧
      (∃ o, p.Uses samplePlain o ∧ p'.Uses sampleDisplaced o) ∧
      p.Relocated p' ∧ p.SameOutputs p' := by
  have hsizes : samplePlain.SameSizes sampleDisplaced := ⟨rfl, rfl, rfl, rfl⟩
  have hproblem : samplePlain.SameProblem sampleDisplaced :=
    ⟨rfl, rfl, rfl, rfl, rfl, rfl, rfl, rfl⟩
  obtain ⟨⟨p, s⟩, hrun⟩ := exists_eq_ok
    (x := (generateNth 1 samplePlain 1).run (ChaCha.Stream.ofSeed 3)) (by decide +kernel)
  obtain ⟨⟨p', s'⟩, hrun'⟩ := exists_eq_ok
    (x := (generateNth 1 sampleDisplaced 1).run (ChaCha.Stream.ofSeed 3)) (by decide +kernel)
  obtain ⟨hstate, ⟨o, -, huses⟩, -, hsame⟩ := generateNth_presentation hsizes hrun hrun'
  exact ⟨p, p', s, hrun, hstate ▸ hrun', ⟨o, huses⟩, hsame hproblem⟩

end Problem

end QuantizedGemm
