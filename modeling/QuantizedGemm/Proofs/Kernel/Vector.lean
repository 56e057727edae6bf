import QuantizedGemm.Proofs.Kernel.VectorSums
import QuantizedGemm.Proofs.Quantization.Derivation
import QuantizedGemm.Variant

/-!
# The vector kernels refine the portable kernel

A vector kernel writes the output stage of its lanes, applied to the accumulators of the portable
kernel of the same tile. Both the sums and the stage are known lane by lane, so what is left is that
the bytes of a tile are these lanes (`Microkernel.accumulates_of_rows`).

## Sound parameters

A vector computation has no plain arithmetic on integers, and its loads stay in complete operands.
So it arrives at a tile with any parameters, where the portable one needs sound ones. Where the zero
point is a byte, the accumulators are the same.

## Shared accumulators

The statement names one accumulator for each output, the one at which the portable computation
arrives. A vector kernel writes its own output stage of them, and a portable kernel whatever its
stage is. So the two kernels of a tile differ in their stages only, and where these agree their
outputs do (`vector_kernel_refines_portable`).
-/

namespace QuantizedGemm

/-- The output stage of a lane, which is never a fault. -/
def SimdParams.stage (p : SimdParams) (acc : Int32) : Except Fault UInt8 := .ok (p.requantize acc)

/-- A computation of accumulators that all parameters are sound for. -/
abbrev Microkernel.AccumulatesLanes (k : Microkernel SimdParams) : Prop :=
  k.Accumulates SimdParams.weightValue SimdParams.stage fun _ ↦ True

/-- A vector computation is told from its rows. -/
theorem Microkernel.accumulates_of_rows {k : Microkernel SimdParams}
    (row : SimdParams → TileOperands → ℕ → Except Fault (Vector Int32 k.shape.nr))
    (hcompute : ∀ p o, k.compute p o = (do
      let sums ← (List.range k.shape.mr).mapM (row p o)
      pure (sums.map fun v ↦ (v.map p.requantize).toArray).toArray))
    (hrow : ∀ p o, o.Complete k.shape → ∀ i < k.shape.mr, ∃ v, row p o i = .ok v ∧
      ∀ (j : ℕ) (hj : j < k.shape.nr),
        v[j] = Portable.valuedAccumulator k.shape o p.weightValue i j) :
    k.AccumulatesLanes where
  exists_out {p o} ho _ := by
    obtain ⟨sums, hsums⟩ := exists_mapM_range fun i hi ↦
      (hrow p o ho i hi).imp fun _ hv ↦ hv.1
    exact ⟨_, by rw [hcompute, hsums, ok_bind]; rfl⟩
  size_out {p o out} _ hout := by
    rw [hcompute] at hout
    obtain ⟨sums, hsums, ⟨⟩⟩ := bind_eq_ok_iff.mp hout
    simpa using (mapM_range_eq_ok_iff.mp hsums).1
  byte_out {p o out} ho hout i j hi hj := by
    rw [hcompute] at hout
    obtain ⟨sums, hsums, ⟨⟩⟩ := bind_eq_ok_iff.mp hout
    obtain ⟨v, hv, hget⟩ := (mapM_range_eq_ok_iff.mp hsums).2 i hi
    obtain ⟨v', hv', hacc⟩ := hrow p o ho i hi
    cases hv.symm.trans hv'
    refine ⟨p.requantize v[j], ?_, congrArg (fun acc ↦ Except.ok (p.requantize acc)) ?_⟩
    · simp [Array.getD_eq_getD_getElem?, hget, hj]
    · exact (hacc j hj).symm

namespace FourColumn

theorem compute_eq (s : LaneOps) (mr : ℕ) (p : SimdParams) (o : TileOperands) :
    (microkernel s mr).compute p o = (do
      let sums ← (List.range mr).mapM (rowSums s p o mr)
      pure (sums.map fun v ↦ (v.map p.requantize).toArray).toArray) := by
  simp only [← packAll_map_scaleLanes]
  rfl

theorem microkernel_accumulates {s : LaneOps} (hs : s.Correct) (mr : ℕ) :
    (microkernel s mr).AccumulatesLanes :=
  Microkernel.accumulates_of_rows (fun p o i ↦ rowSums s p o mr i) (compute_eq s mr)
    fun p o ho _ hi ↦ exists_rowSums hs p o ho hi

end FourColumn

namespace EightColumn

theorem compute_eq (mr : ℕ) (p : SimdParams) (o : TileOperands) :
    (microkernel mr).compute p o = (do
      let sums ← (List.range mr).mapM (rowSums p o mr)
      pure (sums.map fun v ↦ (v.map p.requantize).toArray).toArray) := by
  simp only [← packAll_map_scaleLanes]
  rfl

theorem microkernel_accumulates (mr : ℕ) : (microkernel mr).AccumulatesLanes :=
  Microkernel.accumulates_of_rows (fun p o i ↦ rowSums p o mr i) (compute_eq mr)
    fun p o ho _ hi ↦ exists_rowSums p o ho hi

end EightColumn

theorem Variant.exists_vector {v : Variant} (hv : v ∈ Variant.vectorVariants) :
    ∃ k : Microkernel SimdParams, k.AccumulatesLanes ∧ v = Variant.vector k := by
  simp only [Variant.vectorVariants, List.mem_cons, List.not_mem_nil, or_false] at hv
  rcases hv with rfl | rfl | rfl | rfl
  · exact ⟨_, EightColumn.microkernel_accumulates 2, rfl⟩
  · exact ⟨_, FourColumn.microkernel_accumulates FourColumn.LaneOps.sse41_correct 3, rfl⟩
  · exact ⟨_, FourColumn.microkernel_accumulates FourColumn.LaneOps.sse2_correct 2, rfl⟩
  · exact ⟨_, FourColumn.microkernel_accumulates FourColumn.LaneOps.sse2_correct 1, rfl⟩

theorem Variant.shape_pos_of_vector {v : Variant} (hv : v ∈ Variant.vectorVariants) :
    0 < v.shape.nr ∧ 0 < v.shape.kr ∧ 0 < v.shape.sr := by
  revert v
  decide

theorem Family.derive_simd_eq_ok_iff {a : QuantizationArgs} {params : Params} :
    Family.simd.derive a = .ok params ↔
      a.validate QuantizationArgs.maxFloatScale = .ok () ∧ .simd a.simdParams = params :=
  derive_eq_ok_iff

/-- **The vector kernels refine the portable kernel.** On any admitted call, whatever the weights
are, the portable computation of the same tile arrives at an accumulator for each output. The vector
kernel succeeds and applies its output stage to these, and portable kernels with any output stage
theirs. -/
theorem vector_kernel_refines_portable {v : Variant} (hv : v ∈ Variant.vectorVariants)
    {host : Capabilities} (hhost : host.supports v.isa) {a : QuantizationArgs} {call : Call}
    {c : Bytes} (hp : Family.simd.derive a = .ok call.params) (h : v.shape.Admits call c.size)
    (hstrides : StridesDisjoint call.mr call.nc v.shape.nr call.cmStride call.cnStride) :
    ∃ acc : ℕ → ℕ → Int32,
      (∀ i < call.mr, ∀ j < call.nc,
        Portable.accumulator v.shape (call.operands v.shape (j / v.shape.nr))
          (byteToInt32 a.kernelZeroPoint) i (j % v.shape.nr) = .ok (acc i j)) ∧
      (∃ c', v.kernel host call c = .ok () c' ∧ ∀ i < call.mr, ∀ j < call.nc,
        c'[outputPosition v.shape.nr call.cmStride call.cnStride i j]? =
          some (a.simdParams.requantize (acc i j))) ∧
      ∀ (π : Type) [OutputStage π] (q : π) (params : Params), params.get π = .ok q →
        OutputStage.kernelZeroPoint q = byteToInt32 a.kernelZeroPoint →
        ((∀ acc, ∃ y, OutputStage.requantize q acc = .ok y) →
          ∃ c', (Portable.microkernel v.shape π).kernel host { call with params } c = .ok () c') ∧
        ∀ c', (Portable.microkernel v.shape π).kernel host { call with params } c = .ok () c' →
          ∀ i < call.mr, ∀ j < call.nc, ∃ y, OutputStage.requantize q (acc i j) = .ok y ∧
            c'[outputPosition v.shape.nr call.cmStride call.cnStride i j]? = some y := by
  obtain ⟨hnr, hkr, hsr⟩ := Variant.shape_pos_of_vector hv
  have hget : call.params.get SimdParams = .ok a.simdParams := by
    rw [← (Family.derive_simd_eq_ok_iff.mp hp).2]
    rfl
  have hvalue : a.simdParams.weightValue = Portable.lessZero (byteToInt32 a.kernelZeroPoint) :=
    SimdParams.weightValue_eq rfl
  refine ⟨fun i j ↦ Portable.valuedAccumulator v.shape (call.operands v.shape (j / v.shape.nr))
    (Portable.lessZero (byteToInt32 a.kernelZeroPoint)) i (j % v.shape.nr), ?_, ?_, ?_⟩
  · intro i hi j hj
    exact (Portable.unlessOverflow_accumulator hkr hsr
      (Call.operands_complete h (div_lt_divideUp hnr hj)) (hi.trans_le h.mr_le)
      (Nat.mod_lt j hnr)).eq_ok (not_not.mpr ⟨_, rfl⟩)
  · obtain ⟨k, hk, rfl⟩ := Variant.exists_vector hv
    obtain ⟨hok, hout⟩ := hk.kernel_writes hget hhost h hnr hstrides
    obtain ⟨c', hrun⟩ := hok trivial
    refine ⟨c', hrun, fun i hi j hj ↦ ?_⟩
    obtain ⟨y, ⟨⟩, hbyte⟩ := hout c' hrun i hi j hj
    rwa [hvalue] at hbyte
  · intro π _ q params hq hzero
    have hget : ({ call with params } : Call).params.get π = .ok q := hq
    have hadmits : v.shape.Admits { call with params } c.size := { h with }
    have hportable : host.supports .scalar := rfl
    obtain ⟨hok, hout⟩ := (Portable.microkernel_accumulates hkr hsr π).kernel_writes hget
      hportable hadmits hnr hstrides
    refine ⟨fun hstage ↦ hok ⟨⟨_, hzero⟩, hstage⟩, ?_⟩
    rw [hzero] at hout
    exact hout

/-- One row and five columns, with weights that no packing produces. -/
def sampleVectorCall : Call where
  mr := 1
  nc := 5
  kc := 3
  ks := 1
  view := ⟨#[.input 0, .zero], #[10, 20, 30], #[5, 5, 5], 0⟩
  weights := ((List.range 96).map UInt8.ofNat).toArray
  cmStride := 5
  cnStride := 8
  params := .simd (QuantizationArgs.simdParams ⟨3, .ofBits 0x3F000000, 100, 10, 250⟩)

theorem sampleVectorCall_refines_portable : ∃ acc : ℕ → ℕ → Int32,
    (∀ i < 1, ∀ j < 5, Portable.accumulator ⟨2, 8, 8, 1⟩
      (sampleVectorCall.operands ⟨2, 8, 8, 1⟩ (j / 8)) (byteToInt32 3) i (j % 8) =
        .ok (acc i j)) ∧
    ∃ c', (Variant.vector (EightColumn.microkernel 2)).kernel (.x86Host 1) sampleVectorCall
        (Array.replicate 5 0) = .ok () c' ∧
      ∀ i < 1, ∀ j < 5, c'[outputPosition 8 5 8 i j]? =
        some ((QuantizationArgs.simdParams ⟨3, .ofBits 0x3F000000, 100, 10, 250⟩).requantize
          (acc i j)) := by
  obtain ⟨acc, hacc, hrun, -⟩ := @vector_kernel_refines_portable
    (.vector (EightColumn.microkernel 2)) (by simp [Variant.vectorVariants]) (.x86Host 1) rfl _
    sampleVectorCall (Array.replicate 5 0)
    (Family.derive_simd_eq_ok_iff.mpr ⟨by decide +kernel, rfl⟩)
    (TileShape.check_eq_ok_iff.mp rfl) (by unfold StridesDisjoint; decide)
  exact ⟨acc, hacc, hrun⟩

end QuantizedGemm
