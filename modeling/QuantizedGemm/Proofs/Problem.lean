import QuantizedGemm.Problem
import QuantizedGemm.Proofs.Kernel.Portable
import QuantizedGemm.Proofs.Random.Draw
import QuantizedGemm.Proofs.TestCase

/-!
# Generated problems

Generating a problem is drawing `Operands`, whose sizes are all that the drawing depends on, and
then putting the problem together without further words (`generate_eq`).

## What is drawn

All that has to be known of the operands is that they fit: their lengths, and that the references
are those to every row for each tap in another order.

## What is packed

Packing the weights is the one step after the drawing that may fail. It takes a reduction of 32
bits, and room for the groups of weights (`Operands.exists_pack_iff`). Most tiles have groups so
short that there is room for any weights (`TestCase.GroupsFit`); for longer ones it depends on what
is drawn.

## What comes out

Whatever is drawn and packed for a valid test case, the problem is `Sound`: its rows can be read,
its weights are packed, and its accumulators are those of the plain filter over the activations that
the kernel will read.
-/

namespace QuantizedGemm

open Draw Finset

def TestCase.zeroPoints (t : TestCase) : ZeroPoints := ⟨t.aZeroPoint, t.bZeroPoint⟩

@[simp] theorem TestCase.input_zeroPoints (t : TestCase) : t.zeroPoints.input = t.aZeroPoint := rfl

@[simp] theorem TestCase.kernel_zeroPoints (t : TestCase) : t.zeroPoints.kernel = t.bZeroPoint :=
  rfl

/-- The groups of the tile have room, whatever the weights are. -/
def TestCase.GroupsFit (t : TestCase) : Prop :=
  t.shape.kr * 255 * max 1 t.aZeroPoint.toNat ≤ 2147483647

instance (t : TestCase) : Decidable t.GroupsFit := by unfold TestCase.GroupsFit; infer_instance

namespace Problem

/-- What the oracle relies on. -/
structure Sound (t : TestCase) (p : Problem) : Prop where
  shape_eq : p.shape = t.shape
  m_eq : p.m = t.m
  n_eq : p.n = t.n
  k_eq : p.k = t.k
  ks_eq : p.ks = t.ks
  cmStride_eq : p.cmStride = t.cmStride
  cnStride_eq : p.cnStride = t.cnStride
  rows : p.view.Holds (t.shape.mr * t.ks) t.k
  /-- The accumulators are those of a filter whose packed weights the problem holds. -/
  accumulators : ∃ (f : Filter) (target : Bytes),
    f.toFilterShape = t.filterShape ∧ f.pack t.shape t.zeroPoints target = .ok p.packed ∧
      ∀ i < t.m, ∀ j < t.n, p.accumulators[i * t.n + j]? = some
        (f.accumulator t.zeroPoints (fun tap k ↦ p.view.byteAt (tap * t.shape.mr + i) k) j)

theorem Sound.stridesDisjoint {t : TestCase} {p : Problem} (hp : p.Sound t) (h : t.Valid) :
    StridesDisjoint p.m p.n p.shape.nr p.cmStride p.cnStride := by
  rw [hp.m_eq, hp.n_eq, hp.shape_eq, hp.cmStride_eq, hp.cnStride_eq]
  exact h.stridesDisjoint

section Operands

variable {t : TestCase} {activations : Bytes} {drawn : Array IndirectRow}

/-! ## References -/

theorem mem_orderedRows {r : IndirectRow} (hmr : 0 < t.shape.mr) (h : r ∈ orderedRows t) :
    ∃ row < t.shape.mr, r = .input (row * t.k) := by
  simp only [orderedRows, List.mem_toArray, List.mem_map] at h
  obtain ⟨i, -, rfl⟩ := h
  exact ⟨i % t.shape.mr, Nat.mod_lt i hmr, rfl⟩

@[simp] theorem size_orderedRows : (orderedRows t).size = t.ks * t.shape.mr := by
  simp [orderedRows]

def viewOf (t : TestCase) (activations : Bytes) (drawn : Array IndirectRow) : IndirectView :=
  ⟨assignRows t drawn, arena t activations, Array.replicate t.k t.aZeroPoint, t.aOffset⟩

variable (h : t.Valid) (hactivations : activations.size = t.shape.mr * t.k)
  (hdrawn : drawn.Perm (orderedRows t))

include h hdrawn

/-- Every reference is padding, or it points to one of the rows or to the spare one. -/
theorem getElem?_assignRows {index : ℕ} (hindex : index < t.ks * t.shape.mr) :
    ∃ r, (assignRows t drawn)[index]? = some r ∧
      (r = .zero ∨ ∃ row ≤ t.shape.mr, r = .input (row * t.k)) := by
  have hlt : index < drawn.size := by rwa [hdrawn.size_eq, size_orderedRows]
  refine ⟨assignedRow t (index % t.shape.mr) drawn[index], by simp [assignRows, hlt], ?_⟩
  unfold assignedRow
  split_ifs
  · exact Or.inr ⟨t.shape.mr, le_rfl, rfl⟩
  · exact Or.inl rfl
  · obtain ⟨row, hrow, heq⟩ :=
      mem_orderedRows h.mr_pos (hdrawn.mem_iff.mp (Array.getElem_mem hlt))
    exact Or.inr ⟨row, hrow.le, heq⟩

include hactivations

theorem holds_viewOf : (viewOf t activations drawn).Holds (t.shape.mr * t.ks) t.k := by
  intro index hindex
  rw [Nat.mul_comm] at hindex
  obtain ⟨r, hr, hcases⟩ := getElem?_assignRows h hdrawn hindex
  refine (IndirectView.row?_iff_available (v := viewOf t activations drawn) hr h.k_pos).mpr ?_
  rw [IndirectView.available_eq]
  rcases hcases with rfl | ⟨row, hrow, rfl⟩
  · simp [viewOf, IndirectView.source]
  · have hle := Nat.mul_le_mul_right t.k hrow
    simp only [viewOf, IndirectView.source, arena, Array.size_append, Array.size_replicate,
      hactivations]
    omega

omit hactivations in
/-- The oracle reads the bytes that a kernel reads. -/
theorem activation_eq_byteAt {index k : ℕ} (hindex : index < t.ks * t.shape.mr) (hk : k < t.k) :
    activation t (arena t activations) ((assignRows t drawn).getD index .zero) k =
      (viewOf t activations drawn).byteAt index k := by
  obtain ⟨r, hr, hcases⟩ := getElem?_assignRows h hdrawn hindex
  rw [IndirectView.byteAt_eq (v := viewOf t activations drawn) hr, Array.getD_eq_getD_getElem?, hr,
    Option.getD_some]
  rcases hcases with rfl | ⟨row, hrow, rfl⟩
  · simp [activation, viewOf, IndirectView.source, Bytes.at0_eq, hk]
  · rfl

/-! ## Accumulators -/

omit hactivations in
theorem accumulator_eq {weights : Bytes} {bias : Array Int32} {i j : ℕ} (hi : i < t.m)
    (hj : j < t.n) :
    accumulator t (arena t activations) (assignRows t drawn) weights bias i j =
      (Filter.mk t.filterShape weights (some bias)).accumulator t.zeroPoints
        (fun tap k ↦ (viewOf t activations drawn).byteAt (tap * t.shape.mr + i) k) j := by
  have hterm : ∀ tap < t.ks, ∀ k < t.k,
      term t (arena t activations) (assignRows t drawn) weights i j tap k = Int32.ofInt
        ((((viewOf t activations drawn).byteAt (tap * t.shape.mr + i) k).toNat -
          t.aZeroPoint.toNat : ℤ) *
        ((weights.at0 ((j * t.ks + tap) * t.k + k)).toNat - t.bZeroPoint.toNat)) := by
    intro tap htap k hk
    have hrow := block_add_lt htap (hi.trans_le h.m_le)
    rw [term, activation_eq_byteAt h hdrawn hrow hk]
    simp only [byteToInt32_eq, Int32.ofInt_mul, Int32.ofInt_sub]
  have hbias : (Filter.mk t.filterShape weights (some bias)).biasAt j = bias.getD j 0 := if_pos hj
  rw [accumulator,
    sumBelow_eq_ofInt fun tap htap ↦ sumBelow_eq_ofInt fun k hk ↦ hterm tap htap k hk,
    Filter.accumulator, hbias, Int32.ofInt_add, Int32.ofInt_toInt]
  rfl

end Operands

theorem getElem?_accumulatorsOf {t : TestCase} {input weights : Bytes} {rows : Array IndirectRow}
    {bias : Array Int32} {i j : ℕ} (hi : i < t.m) (hj : j < t.n) :
    (accumulatorsOf t input rows weights bias)[i * t.n + j]? =
      some (accumulator t input rows weights bias i j) := by
  rw [accumulatorsOf, List.getElem?_toArray,
    List.getElem?_flatMap_range (fun _ _ ↦ by simp) hi hj, List.getElem?_map,
    List.getElem?_range hj, Option.map_some]

/-! ## Operands -/

/-- References to each of `mr` rows of length `k`, once for each tap. -/
def references (mr k ks : ℕ) : List IndirectRow :=
  (List.range ks).flatMap fun _ ↦ (List.range mr).map fun row ↦ .input (row * k)

theorem orderedRows_eq (t : TestCase) :
    orderedRows t = (references t.shape.mr t.k t.ks).toArray := by
  refine congrArg List.toArray ?_
  induction t.ks with
  | zero => simp [references]
  | succ ks ih =>
    rw [Nat.succ_mul, List.range_add, List.map_append, ih, references, references, List.range_succ,
      List.flatMap_append, List.flatMap_singleton, List.map_map]
    refine congrArg _ (List.map_congr_left fun row hrow ↦ ?_)
    rw [Function.comp_apply, block_add_mod (List.mem_range.mp hrow)]

/-- All that is drawn for a problem. -/
structure Operands where
  activations : Bytes
  /-- The references to the rows of all taps, as they were shuffled. -/
  order : Array IndirectRow
  weights : Bytes
  bias : Array Int32

namespace Operands

/-- Operands of definite sizes. -/
structure Fits (o : Operands) (mr n k ks : ℕ) : Prop where
  activations : o.activations.size = mr * k
  order : o.order.Perm (references mr k ks).toArray
  weights : o.weights.size = n * ks * k
  bias : o.bias.size = n

/-- Draws operands. Their sizes are all that it depends on. -/
def draw {σ : Type} [WordSource σ] (attempts mr n k ks : ℕ) : Draw σ Operands := do
  let activations ← drawVaried attempts (mr * k)
  let order ← shuffle (references mr k ks).toArray
  let weights ← drawVaried attempts (n * ks * k)
  let bias ← (List.range n).mapM fun _ ↦ drawBias
  pure ⟨activations, order, weights, bias.toArray⟩

variable (o : Operands) (t : TestCase)

def filter : Filter := ⟨t.filterShape, o.weights, some o.bias⟩

def pack : Except Failure Bytes :=
  (o.filter t).pack t.shape t.zeroPoints
    (Array.replicate (t.shape.packedSize t.filterShape) t.bZeroPoint)

/-- The problem that the operands make up. -/
def problem (packed : Bytes) : Problem where
  shape := t.shape
  m := t.m
  n := t.n
  k := t.k
  ks := t.ks
  cmStride := t.cmStride
  cnStride := t.cnStride
  view := viewOf t o.activations o.order
  weights := o.weights
  bias := o.bias
  packed := packed
  accumulators :=
    accumulatorsOf t (arena t o.activations) (assignRows t o.order) o.weights o.bias

variable {o t} (h : t.Valid) (ho : o.Fits t.shape.mr t.n t.k t.ks)

include h ho

theorem packable_filter (hreduction : t.ks * t.k ≤ maxReduction) :
    (o.filter t).Packable t.shape
      (Array.replicate (t.shape.packedSize t.filterShape) t.bZeroPoint) where
  nr_pos := h.nr_pos
  kr_pos := h.kr_pos
  sr_pos := h.sr_pos
  weights := ho.weights.ge
  bias := by
    rintro b ⟨⟩
    exact ho.bias.ge
  target := Array.size_replicate.ge
  reduction := hreduction

theorem exists_pack_iff : (∃ packed, o.pack t = .ok packed) ↔
    t.ks * t.k ≤ maxReduction ∧ (o.filter t).Fits t.shape t.zeroPoints := by
  constructor
  · rintro ⟨packed, hpack⟩
    obtain ⟨hpackable, hfits, -⟩ := Filter.pack_eq_ok_iff.mp hpack
    exact ⟨hpackable.reduction, hfits⟩
  · rintro ⟨hreduction, hfits⟩
    exact Filter.exists_pack (packable_filter h ho hreduction) hfits

theorem pack_eq_overflow (hreduction : t.ks * t.k ≤ maxReduction)
    (hfits : ¬(o.filter t).Fits t.shape t.zeroPoints) : o.pack t = .error (.fault .overflow) :=
  Filter.pack_eq_overflow (packable_filter h ho hreduction) hfits

theorem sound_problem {packed : Bytes} (hpack : o.pack t = .ok packed) :
    (o.problem t packed).Sound t := by
  have horder : o.order.Perm (orderedRows t) := orderedRows_eq t ▸ ho.order
  exact ⟨rfl, rfl, rfl, rfl, rfl, rfl, rfl, holds_viewOf h ho.activations horder, _, _, rfl, hpack,
    fun i hi j hj ↦ (getElem?_accumulatorsOf hi hj).trans
      (congrArg some (accumulator_eq h horder hi hj))⟩

end Operands

/-! ## Drawing -/

@[simp] theorem run_orEnd_eq_ok_iff {σ α : Type} {x : Except Failure α} {a : α} {s s' : σ} :
    (orEnd x : Draw σ α).run s = .ok (a, s') ↔ x = .ok a ∧ s = s' := by
  cases x with
  | error e => exact ⟨nofun, fun h ↦ nomatch h.1⟩
  | ok b => exact ⟨by rintro ⟨⟩; exact ⟨rfl, rfl⟩, by rintro ⟨⟨⟩, rfl⟩; rfl⟩

@[simp] theorem run_orEnd_eq_error_iff {σ α : Type} {x : Except Failure α} {s : σ} {e : Failure} :
    (orEnd x : Draw σ α).run s = .error e ↔ x = .error e := by
  cases x with
  | error e' => exact ⟨by rintro ⟨⟩; rfl, by rintro ⟨⟩; rfl⟩
  | ok a => exact ⟨nofun, nofun⟩

variable {σ : Type} [WordSource σ]

theorem yields_drawBias : (drawBias : Draw σ Int32).Yields fun _ ↦ True :=
  (yields_drawBelow (by norm_num)).bind fun _ _ ↦ yields_pure trivial

theorem Operands.yields_draw (attempts mr n k ks : ℕ) :
    (draw attempts mr n k ks : Draw σ Operands).Yields fun o ↦ o.Fits mr n k ks := by
  -- what each operand yields, in the order in which they are drawn
  refine (yields_drawVaried attempts _).bind fun activations hactivations ↦ ?_
  refine (yields_shuffle _).bind fun order horder ↦ ?_
  refine (yields_drawVaried attempts _).bind fun weights hweights ↦ ?_
  refine (Yields.mapM fun _ _ ↦ yields_drawBias).bind fun bias hbias ↦ yields_pure ?_
  refine ⟨hactivations, horder, hweights, ?_⟩
  rw [List.size_toArray, hbias.1, List.length_range]

theorem generate_eq (attempts : ℕ) (t : TestCase) : (generate attempts t : Draw σ Problem) =
    (do
      orEnd (asRefusal t.validate)
      let o ← Operands.draw attempts t.shape.mr t.n t.k t.ks
      let packed ← orEnd (o.pack t)
      pure (o.problem t packed)) := by
  simp only [generate, Operands.draw, orderedRows_eq, bind_assoc, pure_bind]
  rfl

theorem run_generate_eq_ok_iff {attempts : ℕ} {t : TestCase} {p : Problem} {s s' : σ} :
    (generate attempts t).run s = .ok (p, s') ↔ t.Valid ∧ ∃ o packed,
      (Operands.draw attempts t.shape.mr t.n t.k t.ks).run s = .ok (o, s') ∧
        o.pack t = .ok packed ∧ o.problem t packed = p := by
  rw [generate_eq, ← TestCase.validate_eq_ok_iff]
  simp only [run_bind_eq_ok_iff, run_orEnd_eq_ok_iff, asRefusal_eq_ok_iff]
  constructor
  · rintro ⟨_, _, ⟨h, rfl⟩, o, _, hdraw, packed, _, ⟨hpack, rfl⟩, ⟨⟩⟩
    exact ⟨h, o, packed, hdraw, hpack, rfl⟩
  · rintro ⟨h, o, packed, hdraw, hpack, rfl⟩
    exact ⟨(), s, ⟨h, rfl⟩, o, s', hdraw, packed, s', ⟨hpack, rfl⟩, rfl⟩

/-- Generating a problem fails where its test case is refused, where the random source does not
vary, and where the weights that were drawn are not packed. -/
theorem of_run_generate_eq_error {attempts : ℕ} {t : TestCase} {s : σ} {e : Failure}
    (hrun : (generate attempts t : Draw σ Problem).run s = .error e) :
    (∃ cause, t.validate = .error cause ∧ e = .refused cause) ∨ e = .fault .exhausted ∨
      ∃ o s', (Operands.draw attempts t.shape.mr t.n t.k t.ks).run s = .ok (o, s') ∧
        o.pack t = .error e := by
  rw [generate_eq, run_bind_eq_error_iff, run_orEnd_eq_error_iff, asRefusal_eq_error_iff] at hrun
  rcases hrun with hvalidate | ⟨_, s₁, hvalidate, hrun⟩
  · exact Or.inl hvalidate
  obtain ⟨-, rfl⟩ := run_orEnd_eq_ok_iff.mp hvalidate
  rw [run_bind_eq_error_iff] at hrun
  rcases hrun with hdraw | ⟨o, s', hdraw, hrun⟩
  · exact Or.inr (Or.inl ((Operands.yields_draw attempts _ _ _ _).of_run_eq_error hdraw))
  rw [run_bind_eq_error_iff, run_orEnd_eq_error_iff] at hrun
  rcases hrun with hpack | ⟨_, _, _, hpure⟩
  · exact Or.inr (Or.inr ⟨o, s', hdraw, hpack⟩)
  · cases hpure

/-- For a valid test case whose reduction has 32 bits, the attempts run out, or a group has no
room. -/
theorem exhausted_or_overflow_of_run_generate {attempts : ℕ} {t : TestCase} (h : t.Valid)
    (hreduction : t.ks * t.k ≤ maxReduction) {s : σ} {e : Failure}
    (hrun : (generate attempts t : Draw σ Problem).run s = .error e) :
    e = .fault .exhausted ∨ e = .fault .overflow ∧ ¬t.GroupsFit := by
  rcases of_run_generate_eq_error hrun with
    ⟨cause, hvalidate, -⟩ | hexhausted | ⟨o, s', hdraw, hpack⟩
  · rw [TestCase.validate_eq_ok_iff.mpr h] at hvalidate
    cases hvalidate
  · exact Or.inl hexhausted
  · have ho := (Operands.yields_draw attempts _ _ _ _).of_run_eq_ok hdraw
    have hfits : ¬(o.filter t).Fits t.shape t.zeroPoints := by
      intro hfits
      obtain ⟨packed, hpacked⟩ := (Operands.exists_pack_iff h ho).mpr ⟨hreduction, hfits⟩
      cases hpacked.symm.trans hpack
    have hoverflow := Operands.pack_eq_overflow h ho hreduction hfits
    exact Or.inr ⟨Except.error.inj (hpack.symm.trans hoverflow),
      fun hgroups ↦ hfits (Filter.fits_of_mul_le hgroups)⟩

theorem run_generate_of_draw_error {attempts : ℕ} {t : TestCase} (h : t.Valid) {e : Failure} {s : σ}
    (hdraw : (Operands.draw attempts t.shape.mr t.n t.k t.ks).run s = .error e) :
    (generate attempts t).run s = .error e := by
  have hvalidate : asRefusal t.validate = .ok () :=
    asRefusal_eq_ok_iff.mpr (TestCase.validate_eq_ok_iff.mpr h)
  rw [generate_eq, run_bind_eq_error_iff]
  exact Or.inr ⟨(), s, run_orEnd_eq_ok_iff.mpr ⟨hvalidate, rfl⟩,
    run_bind_eq_error_iff.mpr (Or.inl hdraw)⟩

theorem run_generate_of_pack {attempts : ℕ} {t : TestCase} (h : t.Valid) {o : Operands}
    {packed : Bytes} {s s' : σ}
    (hdraw : (Operands.draw attempts t.shape.mr t.n t.k t.ks).run s = .ok (o, s'))
    (hpack : o.pack t = .ok packed) :
    (generate attempts t).run s = .ok (o.problem t packed, s') :=
  run_generate_eq_ok_iff.mpr ⟨h, o, packed, hdraw, hpack, rfl⟩

theorem run_generate_of_pack_error {attempts : ℕ} {t : TestCase} (h : t.Valid) {o : Operands}
    {e : Failure} {s s' : σ}
    (hdraw : (Operands.draw attempts t.shape.mr t.n t.k t.ks).run s = .ok (o, s'))
    (hpack : o.pack t = .error e) : (generate attempts t).run s = .error e := by
  have hvalidate : asRefusal t.validate = .ok () :=
    asRefusal_eq_ok_iff.mpr (TestCase.validate_eq_ok_iff.mpr h)
  rw [generate_eq, run_bind_eq_error_iff]
  refine Or.inr ⟨(), s, run_orEnd_eq_ok_iff.mpr ⟨hvalidate, rfl⟩, ?_⟩
  exact run_bind_eq_error_iff.mpr (Or.inr ⟨o, s', hdraw,
    run_bind_eq_error_iff.mpr (Or.inl (run_orEnd_eq_error_iff.mpr hpack))⟩)

/-- A problem that was generated is sound, and its test case was valid. -/
theorem sound_of_generate {attempts : ℕ} {t : TestCase} {p : Problem} {s s' : σ}
    (hrun : (generate attempts t).run s = .ok (p, s')) : t.Valid ∧ p.Sound t := by
  obtain ⟨h, o, packed, hdraw, hpack, rfl⟩ := run_generate_eq_ok_iff.mp hrun
  have ho := (Operands.yields_draw attempts _ _ _ _).of_run_eq_ok hdraw
  exact ⟨h, Operands.sound_problem h ho hpack⟩

/-! ## Iterations -/

/-- Draws the operands of iteration `i` of a run, after those of the iterations before. -/
def Operands.drawNth (attempts mr n k ks : ℕ) : ℕ → Draw σ Operands
  | 0 => draw attempts mr n k ks
  | i + 1 => do
    let _ ← draw attempts mr n k ks
    drawNth attempts mr n k ks i

/-- Generates the problem of iteration `i` of a run, after those of the iterations before. -/
def generateNth (attempts : ℕ) (t : TestCase) : ℕ → Draw σ Problem
  | 0 => generate attempts t
  | i + 1 => do
    let _ ← generate attempts t
    generateNth attempts t i

theorem Operands.yields_drawNth (attempts mr n k ks i : ℕ) :
    (drawNth attempts mr n k ks i : Draw σ Operands).Yields fun o ↦ o.Fits mr n k ks := by
  induction i with
  | zero => exact yields_draw attempts mr n k ks
  | succ i ih => exact (yields_draw attempts mr n k ks).bind fun _ _ ↦ ih

theorem exists_drawNth {attempts i : ℕ} {t : TestCase} {p : Problem} {s s' : σ}
    (hrun : (generateNth attempts t i).run s = .ok (p, s')) : t.Valid ∧ ∃ o packed,
      (Operands.drawNth attempts t.shape.mr t.n t.k t.ks i).run s = .ok (o, s') ∧
        o.pack t = .ok packed ∧ o.problem t packed = p := by
  induction i generalizing s with
  | zero => exact run_generate_eq_ok_iff.mp hrun
  | succ i ih =>
    obtain ⟨q, s₁, hfirst, hrest⟩ := run_bind_eq_ok_iff.mp hrun
    obtain ⟨-, o₁, -, hdraw₁, -, -⟩ := run_generate_eq_ok_iff.mp hfirst
    obtain ⟨h, o, packed, hdraw, hmade⟩ := ih hrest
    exact ⟨h, o, packed, run_bind_eq_ok_iff.mpr ⟨o₁, s₁, hdraw₁, hdraw⟩, hmade⟩

end Problem

end QuantizedGemm
