import QuantizedGemm.Proofs.Kernel.Bounds

/-!
# What a call leaves alone

A kernel always computes full tiles and trims them when it stores them: rows past `mr` and columns
past `nc` never reach the buffer. Every store is a row of outputs that lie next to each other, and
nothing else in a run touches the buffer, so that no strides have to be disjoint for this.

## Runs that write some positions only

`WritesOnly` says of a run that it changes some positions only, whether it ends well or with a
fault, and that it refuses nothing. A store has this property for its own range, and loops keep it.

## Refusals

All that a call is refused for is found before its first tile: parameters of another family, a check
that fails, a host without the instructions. So a refused call finds the buffer as it left it, and
every other call changes outputs only (`Variant.kernel_frame`).
-/

namespace QuantizedGemm

/-! ## Outputs -/

def Call.outputs (call : Call) (t : TileShape) : Set ℕ :=
  {q | ∃ i < call.mr, ∃ j < call.nc, q = outputPosition t.nr call.cmStride call.cnStride i j}

section Outputs

variable {t : TileShape} {call : Call}

theorem Call.mem_outputs_of_store {tile i q : ℕ} (hi : i < call.mr)
    (hle : tile * call.cnStride + i * call.cmStride ≤ q)
    (hlt : q < tile * call.cnStride + i * call.cmStride + t.tileColumns call tile) :
    q ∈ call.outputs t := by
  obtain ⟨l, rfl⟩ := Nat.exists_eq_add_of_le hle
  have hl : l < t.tileColumns call tile := by omega
  exact ⟨i, hi, _, TileShape.column_lt hl, (TileShape.position_of_lt hl i).symm⟩

/-- Where neither rows nor column tiles reach into one another, a lane of a tile in a row is an
output only if the row, the lane and the column belong to the call. -/
theorem Call.notMem_outputs_of_gap (hnr : 0 < t.nr) (hcols : t.nr ≤ call.cnStride)
    (hrows : (call.nc - 1) / t.nr * call.cnStride + (call.nc - 1) % t.nr + 1 ≤ call.cmStride)
    {row tile lane : ℕ} (hlane : lane < call.cnStride)
    (hrow : tile * call.cnStride + lane < call.cmStride)
    (hgap : call.mr ≤ row ∨ t.nr ≤ lane ∨ call.nc ≤ tile * t.nr + lane) :
    row * call.cmStride + (tile * call.cnStride + lane) ∉ call.outputs t := by
  rintro ⟨i, hi, j, hj, heq⟩
  have hmod := Nat.mod_lt j hnr
  -- the columns of one row end before the next row starts
  have hcolumn : j / t.nr * call.cnStride + j % t.nr < call.cmStride := by
    have hlt : outputPosition t.nr call.cmStride call.cnStride 0 j < _ :=
      outputPosition_lt_outputLength (Or.inl hcols) Nat.zero_lt_one hj
    rw [outputPosition, outputLength, if_neg (by omega)] at hlt
    omega
  rw [outputPosition, Nat.add_assoc] at heq
  obtain ⟨rfl, hplace⟩ := div_mul_add_mod_inj hrow hcolumn heq
  obtain ⟨rfl, rfl⟩ := div_mul_add_mod_inj hlane (hmod.trans_le hcols) hplace
  rw [Nat.div_add_mod'] at hgap
  omega

end Outputs

/-! ## Runs that write some positions only -/

/-- Buffers of one size that are the same outside of some positions. -/
structure SameOutside (written : Set ℕ) (b b' : Bytes) : Prop where
  size_eq : b'.size = b.size
  getElem?_eq {q : ℕ} (hq : q ∉ written) : b'[q]? = b[q]?

namespace SameOutside

variable {written : Set ℕ} {b b' b'' : Bytes}

theorem refl (written : Set ℕ) (b : Bytes) : SameOutside written b b := ⟨rfl, fun _ ↦ rfl⟩

theorem trans (h : SameOutside written b b') (h' : SameOutside written b' b'') :
    SameOutside written b b'' :=
  ⟨h'.size_eq.trans h.size_eq, fun hq ↦ (h'.getElem?_eq hq).trans (h.getElem?_eq hq)⟩

end SameOutside

/-- A run that changes some positions only, however it ends, and that refuses nothing. -/
def WritesOnly (written : Set ℕ) (run : EStateM Failure Bytes Unit) : Prop :=
  ∀ b, ∃ b', SameOutside written b b' ∧
    (run b = .ok () b' ∨ ∃ fault, run b = .error (.fault fault) b')

namespace WritesOnly

variable {written : Set ℕ}

theorem storeRow {start cols : ℕ} (row : Bytes)
    (h : ∀ q, start ≤ q → q < start + cols → q ∈ written) :
    WritesOnly written (storeRow start cols row) := by
  intro b
  by_cases hfits : start + cols ≤ b.size
  · refine ⟨_, ⟨Bytes.size_overwrite .., fun {q} hq ↦ ?_⟩,
      Or.inl (Microkernel.storeRow_eq_ok row hfits)⟩
    refine Bytes.getElem?_overwrite_of_ne _ _ _ fun l hl heq ↦ hq (h q ?_ ?_) <;> omega
  · refine ⟨b, .refl written b, Or.inr ⟨.outOfBounds, ?_⟩⟩
    unfold QuantizedGemm.storeRow
    rw [run_bind_of_ok run_get, if_neg hfits]
    rfl

/-- A loop of such runs ends with the first one that fails. -/
theorem forM {α : Type} {step : α → EStateM Failure Bytes Unit} {l : List α}
    (h : ∀ a ∈ l, WritesOnly written (step a)) : WritesOnly written (l.forM step) := by
  induction l with
  | nil => exact fun b ↦ ⟨b, .refl written b, Or.inl rfl⟩
  | cons a l ih =>
    intro b
    obtain ⟨b₁, hsame₁, hrun₁⟩ := h a List.mem_cons_self b
    rcases hrun₁ with hok | ⟨fault, hfault⟩
    · obtain ⟨b₂, hsame₂, hrun₂⟩ := ih (fun a' ha' ↦ h a' (List.mem_cons_of_mem a ha')) b₁
      have hloop : (a :: l).forM step b = l.forM step b₁ := run_bind_of_ok hok
      exact ⟨b₂, hsame₁.trans hsame₂, hloop ▸ hrun₂⟩
    · exact ⟨b₁, hsame₁, Or.inr ⟨fault, run_bind_of_error hfault⟩⟩

end WritesOnly

/-! ## Kernels -/

namespace Microkernel

variable {π : Type} {k : Microkernel π} {host : Capabilities} {call : Call}

theorem writesOnly_runTile (p : π) (rows : Array Bytes) (tile : ℕ) :
    WritesOnly (call.outputs k.shape) (k.runTile p call rows tile) := by
  unfold runTile
  dsimp only
  cases hweights : call.tileWeights? (k.shape.packedTileSize call.ks call.kc) tile with
  | none => exact fun b ↦ ⟨b, .refl _ b, Or.inr ⟨.outOfBounds, rfl⟩⟩
  | some weights =>
    cases hout : k.compute p ⟨call.kc, call.ks, rows, weights⟩ with
    | error fault =>
      refine fun b ↦ ⟨b, .refl _ b, Or.inr ⟨fault, ?_⟩⟩
      rw [run_bind_of_ok (run_orFault rfl)]
      exact run_bind_of_error (run_orRaise_of_error hout)
    | ok out =>
      have hstores : WritesOnly (call.outputs k.shape)
          (storeTile out call.mr (k.shape.tileColumns call tile) (tile * call.cnStride)
            call.cmStride) := by
        refine WritesOnly.forM fun i hi ↦ .storeRow _ fun q hle hlt ↦ ?_
        rw [List.mem_range] at hi
        exact Call.mem_outputs_of_store (hi.trans_le (Nat.min_le_left ..)) hle hlt
      intro b
      rw [run_bind_of_ok (run_orFault rfl), run_bind_of_ok (run_orRaise hout)]
      exact hstores b

/-- An accepted call gets as far as its tiles on a host that runs it, and has not written anything
until then. -/
theorem kernel_of_admits [ParamsFamily π] {p : π} {b : Bytes} (hp : call.params.get π = .ok p)
    (hhost : host.supports k.isa) (h : k.shape.Admits call b.size) :
    ∃ b', SameOutside (call.outputs k.shape) b b' ∧
      (k.kernel host call b = .ok () b' ∨
        ∃ fault, k.kernel host call b = .error (.fault fault) b') := by
  rw [kernel_eq_forM hp hhost h]
  exact WritesOnly.forM (fun tile _ ↦ writesOnly_runTile p _ tile) b

end Microkernel

namespace Variant

/-- What a call of the catalogue is refused for. -/
def Refuses (v : Variant) (host : Capabilities) (call : Call) (size : ℕ) : Prop :=
  call.params.family ≠ v.family ∨ ¬v.shape.Admits call size ∨ host.supports v.isa = false

/-- How a call of the catalogue ends: it is refused before it touches the buffer, or else it writes
outputs only. -/
theorem kernel_ends {v : Variant} (hv : v ∈ catalogue) (host : Capabilities) (call : Call)
    (b : Bytes) :
    v.Refuses host call b.size ∧ (∃ e, v.kernel host call b = .error (.refused e) b) ∨
      ¬v.Refuses host call b.size ∧ ∃ b', SameOutside (call.outputs v.shape) b b' ∧
        (v.kernel host call b = .ok () b' ∨
          ∃ fault, v.kernel host call b = .error (.fault fault) b') := by
  obtain ⟨π, _, _, k, value, stage, sound, hk⟩ := exists_implements hv
  rw [Refuses, hk.family_eq, hk.shape_eq, hk.kernel_eq, hk.isa_eq]
  by_cases hown : call.params.family = ParamsFamily.family π
  · obtain ⟨p, hp⟩ := Params.exists_get hown
    cases hcheck : k.shape.check call b.size with
    | error e =>
      refine Or.inl ⟨Or.inr (Or.inl fun hadmits ↦ ?_), e, Microkernel.kernel_eq_refused hp hcheck⟩
      rw [TileShape.check_eq_ok_iff.mpr hadmits] at hcheck
      cases hcheck
    | ok _ =>
      have hadmits := TileShape.check_eq_ok_iff.mp hcheck
      cases hhost : host.supports k.isa with
      | false =>
        exact Or.inl ⟨Or.inr (Or.inr rfl), _, Microkernel.kernel_eq_unsupported hp hadmits hhost⟩
      | true =>
        exact Or.inr ⟨by simp [hown, hadmits], Microkernel.kernel_of_admits hp hhost hadmits⟩
  · exact Or.inl ⟨Or.inl hown, _, Microkernel.kernel_eq_mismatch hown⟩

theorem size_of_kernel_eq_ok {v : Variant} (hv : v ∈ catalogue) {host : Capabilities} {call : Call}
    {b b' : Bytes} (hrun : v.kernel host call b = .ok () b') : b'.size = b.size := by
  rcases kernel_ends hv host call b with ⟨-, e, hrefused⟩ | ⟨-, b₁, hsame, hok | ⟨fault, hfault⟩⟩
  · cases hrefused.symm.trans hrun
  · cases hok.symm.trans hrun
    exact hsame.size_eq
  · cases hfault.symm.trans hrun

/-- **The frame of a call.** A call is refused if its parameters are of another family, its check
fails or the host lacks the instructions, and then the buffer is what it was. Any other call, under
any strides, changes no byte but those of its outputs, even if it ends with a fault on the way.
Under strides that keep rows and column tiles apart, the gaps between them, the rows past `mr` and
the columns past `nc` stay as they are. -/
theorem kernel_frame {v : Variant} (hv : v ∈ catalogue) (host : Capabilities) (call : Call)
    (b : Bytes) :
    ((∃ e b', v.kernel host call b = .error (.refused e) b') ↔
      call.params.family ≠ v.family ∨ ¬v.shape.Admits call b.size ∨
        host.supports v.isa = false) ∧
    (∀ e b', v.kernel host call b = .error (.refused e) b' → b' = b) ∧
    ∀ b', (v.kernel host call b = .ok () b' ∨
        ∃ fault, v.kernel host call b = .error (.fault fault) b') →
      b'.size = b.size ∧
      (∀ q, (∀ i < call.mr, ∀ j < call.nc,
        q ≠ outputPosition v.shape.nr call.cmStride call.cnStride i j) → b'[q]? = b[q]?) ∧
      (v.shape.nr ≤ call.cnStride →
        (call.nc - 1) / v.shape.nr * call.cnStride + (call.nc - 1) % v.shape.nr + 1 ≤
          call.cmStride →
        ∀ row tile lane, lane < call.cnStride → tile * call.cnStride + lane < call.cmStride →
          call.mr ≤ row ∨ v.shape.nr ≤ lane ∨ call.nc ≤ tile * v.shape.nr + lane →
          b'[row * call.cmStride + (tile * call.cnStride + lane)]? =
            b[row * call.cmStride + (tile * call.cnStride + lane)]?) := by
  have hnr := (shape_pos hv).2.1
  rcases kernel_ends hv host call b with ⟨hrefused, e, hrun⟩ | ⟨haccepted, b₁, hsame, hrun⟩
  · simp only [hrun]
    exact ⟨⟨fun _ ↦ hrefused, fun _ ↦ ⟨e, b, rfl⟩⟩, fun _ _ h ↦ by cases h; rfl,
      fun _ h ↦ by rcases h with h | ⟨_, h⟩ <;> cases h⟩
  · have hnone : ¬∃ e b', v.kernel host call b = .error (.refused e) b' := by
      rintro ⟨e, b', h⟩
      rcases hrun with hrun | ⟨fault, hrun⟩ <;> rw [hrun] at h <;> cases h
    refine ⟨iff_of_false hnone haccepted,
      fun e b' h ↦ absurd ⟨e, b', h⟩ hnone, fun b' hends ↦ ?_⟩
    -- a run has one end only
    obtain rfl : b' = b₁ := by
      rcases hrun with hrun | ⟨fault, hrun⟩ <;> rw [hrun] at hends <;>
        rcases hends with h | ⟨_, h⟩ <;> cases h <;> rfl
    refine ⟨hsame.size_eq, fun q hq ↦ hsame.getElem?_eq ?_,
      fun hcols hrows row tile lane hlane hrow hgap ↦ hsame.getElem?_eq ?_⟩
    · rintro ⟨i, hi, j, hj, heq⟩
      exact hq i hi j hj heq
    · exact Call.notMem_outputs_of_gap hnr hcols hrows hlane hrow hgap

/-- One row and five columns for a tile of two rows and four columns, with two bytes between the
column tiles. -/
def sampleGapCall : Call where
  mr := 1
  nc := 5
  kc := 1
  ks := 1
  view := ⟨#[.input 0, .zero], #[7], #[0], 0⟩
  weights := Array.replicate 40 9
  cmStride := 12
  cnStride := 6
  params := .lrintf (QuantizationArgs.lrintfParams ⟨0, .ofBits 0x3F000000, 0, 0, 255⟩)

/-- The gap between the tiles, the lanes past the fifth column and the second row stay. -/
theorem sampleGapCall_frame :
    (∃ b', (portable LrintfParams ⟨2, 4, 1, 1⟩).kernel (.scalarOnly 1) sampleGapCall
      (Array.replicate 16 0xA5) =
        .ok () b' ∧ b'.size = 16 ∧ b'[4]? = some 0xA5 ∧ b'[7]? = some 0xA5 ∧
          b'[12]? = some 0xA5) ∧
    (∃ e, (portable LrintfParams ⟨2, 4, 1, 1⟩).kernel (.scalarOnly 1) sampleGapCall
      (Array.replicate 6 0xA5) = .error (.refused e) (Array.replicate 6 0xA5)) ∧
    ∃ e, (vector (EightColumn.microkernel 2)).kernel (.scalarOnly 1) sampleGapCall
      (Array.replicate 16 0xA5) = .error (.refused e) (Array.replicate 16 0xA5) := by
  have hv : portable LrintfParams ⟨2, 4, 1, 1⟩ ∈ catalogue := by
    simp [catalogue, portableVariants, plainTiles]
  have hvector : vector (EightColumn.microkernel 2) ∈ catalogue := by
    simp [catalogue, vectorVariants]
  have hroom := kernel_frame hv (.scalarOnly 1) sampleGapCall (Array.replicate 16 0xA5)
  have hshort := kernel_frame hv (.scalarOnly 1) sampleGapCall (Array.replicate 6 0xA5)
  have hother := kernel_frame hvector (.scalarOnly 1) sampleGapCall (Array.replicate 16 0xA5)
  refine ⟨?_, ?_, ?_⟩
  · have hadmits : (⟨2, 4, 1, 1⟩ : TileShape).Admits sampleGapCall (Array.replicate 16 0xA5).size :=
      TileShape.check_eq_ok_iff.mp rfl
    have hcols : 4 ≤ 6 ∨ 5 ≤ 4 := by decide
    have hp : (portable LrintfParams ⟨2, 4, 1, 1⟩).derive ⟨0, .ofBits 0x3F000000, 0, 0, 255⟩ =
        .ok sampleGapCall.params := by decide +kernel
    have hhost : Capabilities.supports (.scalarOnly 1) .scalar := rfl
    obtain ⟨b', hrun⟩ : ∃ b', (portable LrintfParams ⟨2, 4, 1, 1⟩).kernel (.scalarOnly 1)
        sampleGapCall (Array.replicate 16 0xA5) = .ok () b' :=
      ⟨_, kernel_eq_ok hv hhost hp hadmits hcols⟩
    obtain ⟨hsize, -, hgaps⟩ := hroom.2.2 b' (Or.inl hrun)
    have hgap := hgaps (by decide) (by decide)
    exact ⟨b', hrun, hsize, hgap 0 0 4 (by decide) (by decide) (by decide),
      hgap 0 1 1 (by decide) (by decide) (by decide),
      hgap 1 0 0 (by decide) (by decide) (by decide)⟩
  · obtain ⟨e, b', hrun⟩ :=
      hshort.1.mpr (Or.inr (Or.inl fun hadmits ↦ absurd hadmits.output (by decide)))
    exact ⟨e, hshort.2.1 e b' hrun ▸ hrun⟩
  · obtain ⟨e, b', hrun⟩ := hother.1.mpr (Or.inl (by decide))
    exact ⟨e, hother.2.1 e b' hrun ▸ hrun⟩

end Variant

end QuantizedGemm
