import QuantizedGemm.Proofs.Kernel.Frame
import QuantizedGemm.Proofs.Packing.Lossless

/-!
# What the outputs of a call do not depend on

A kernel computes full tiles. It reads rows past `mr`, it multiplies the padding of the reduction
and of the last column tile like everything else, and its buffers may hold more than it reads. None
of this reaches an output. Each output is a stage of the accumulator of its own row and column
(`Microkernel.Accumulates`), in which a position past the end of the reduction counts for nothing,
whatever its weight is.

## Calls that agree

Two calls agree (`Call.Agrees`) if they read the same in the reduction of the rows and columns that
belong to the call. Agreeing calls that succeed write the same bytes
(`Variant.kernel_noninterference`). That both succeed has to be asked for: junk that is not read for
an output may still be too short for a check, or overflow in a portable kernel with made-up
parameters.

## Strides

Strides that overlap are no exception. Such an output has the byte of the last store that reaches
it, and which one that is depends on the strides alone (`TileShape.exists_getElem?_paint`).
-/

namespace QuantizedGemm

/-! ## The last store -/

namespace TileShape

variable {t : TileShape} {call : Call}

/-- The stores of a call in the order in which they are made, each as its tile and its row. -/
def stores (t : TileShape) (call : Call) : List (ℕ × ℕ) :=
  List.range (t.columnTiles call.nc) ×ˢ List.range call.mr

/-- A store reaches a position of the buffer. -/
def Reaches (t : TileShape) (call : Call) (s : ℕ × ℕ) (q : ℕ) : Prop :=
  s.1 * call.cnStride + s.2 * call.cmStride ≤ q ∧
    q < s.1 * call.cnStride + s.2 * call.cmStride + t.tileColumns call s.1

/-- The column that a store writes to a position. -/
def columnAt (t : TileShape) (call : Call) (s : ℕ × ℕ) (q : ℕ) : ℕ :=
  s.1 * t.nr + (q - (s.1 * call.cnStride + s.2 * call.cmStride))

theorem Reaches.columnAt_lt {s : ℕ × ℕ} {q : ℕ} (h : t.Reaches call s q) :
    t.columnAt call s q < call.nc := by
  obtain ⟨hle, hlt⟩ := h
  exact column_lt (by omega)

theorem Reaches.position_columnAt {s : ℕ × ℕ} {q : ℕ} (h : t.Reaches call s q) :
    outputPosition t.nr call.cmStride call.cnStride s.2 (t.columnAt call s q) = q := by
  obtain ⟨hle, hlt⟩ := h
  rw [columnAt, position_of_lt (by omega)]
  omega

theorem exists_reaches {i j : ℕ} (hnr : 0 < t.nr) (hi : i < call.mr) (hj : j < call.nc) :
    ∃ s ∈ t.stores call,
      t.Reaches call s (outputPosition t.nr call.cmStride call.cnStride i j) := by
  have hlane := mod_lt_tileColumns hnr hj
  refine ⟨(j / t.nr, i), List.pair_mem_product.mpr ?_, ?_⟩
  · exact ⟨List.mem_range.mpr (div_lt_divideUp hnr hj), List.mem_range.mpr hi⟩
  · have hposition := position_of_lt hlane i
    rw [Nat.div_add_mod'] at hposition
    rw [hposition]
    exact ⟨Nat.le_add_right .., Nat.add_lt_add_left hlane _⟩

theorem paint_eq_foldl (colour : ℕ → ℕ → UInt8) (b : Bytes) :
    t.paint call colour b =
      (t.stores call).foldl (fun b s ↦ t.paintRow call colour s.1 b s.2) b := by
  have hstores : t.stores call = (List.range (t.columnTiles call.nc)).flatMap fun tile ↦
    (List.range call.mr).map (Prod.mk tile) := rfl
  simp only [hstores, List.foldl_flatMap, List.foldl_map]
  rfl

/-- A position that some stores reach has the byte of the last one of them in the end. -/
theorem exists_last_store {q : ℕ} {l : List (ℕ × ℕ)} (h : ∃ s ∈ l, t.Reaches call s q) :
    ∃ s ∈ l, t.Reaches call s q ∧ ∀ (colour : ℕ → ℕ → UInt8) (b : Bytes), q < b.size →
      (l.foldl (fun b s ↦ t.paintRow call colour s.1 b s.2) b)[q]? =
        some (colour s.2 (t.columnAt call s q)) := by
  induction l using List.reverseRecOn with
  | nil => simp at h
  | append_singleton l last ih =>
    by_cases hlast : t.Reaches call last q
    · refine ⟨last, by simp, hlast, fun colour b hq ↦ ?_⟩
      have hsize : (l.foldl (fun b s ↦ t.paintRow call colour s.1 b s.2) b).size = b.size :=
        List.foldlRecOn (motive := fun b' : Bytes ↦ b'.size = b.size) l _ rfl
          fun b' hb' s _ ↦ (size_paintRow s.1 b' s.2).trans hb'
      rw [List.foldl_concat, paintRow, Bytes.getElem?_overwrite,
        if_pos ⟨hlast.1, hlast.2, hsize ▸ hq⟩]
      rfl
    · obtain ⟨s, hs, hreach, hbyte⟩ := ih <| by
        obtain ⟨s, hs, hreach⟩ := h
        rcases List.mem_append.mp hs with hs | hs
        · exact ⟨s, hs, hreach⟩
        · exact absurd (List.mem_singleton.mp hs ▸ hreach) hlast
      refine ⟨s, List.mem_append_left _ hs, hreach, fun colour b hq ↦ ?_⟩
      rw [List.foldl_concat, paintRow, Bytes.getElem?_overwrite,
        if_neg fun hin ↦ hlast ⟨hin.1, hin.2.1⟩]
      exact hbyte colour b hq

/-- Under any strides, an output has the colour of an output at its position, and of the same one
whatever the buffer and the colours are. -/
theorem exists_getElem?_paint {i j : ℕ} (hnr : 0 < t.nr) (hi : i < call.mr) (hj : j < call.nc) :
    ∃ i' < call.mr, ∃ j' < call.nc,
      outputPosition t.nr call.cmStride call.cnStride i' j' =
        outputPosition t.nr call.cmStride call.cnStride i j ∧
      ∀ (colour : ℕ → ℕ → UInt8) (b : Bytes),
        outputPosition t.nr call.cmStride call.cnStride i j < b.size →
          (t.paint call colour b)[outputPosition t.nr call.cmStride call.cnStride i j]? =
            some (colour i' j') := by
  obtain ⟨s, hs, hreach, hbyte⟩ := exists_last_store (exists_reaches hnr hi hj)
  have hrow := List.mem_range.mp (List.pair_mem_product.mp hs).2
  refine ⟨s.2, hrow, _, hreach.columnAt_lt, hreach.position_columnAt, fun colour b hq ↦ ?_⟩
  rw [paint_eq_foldl]
  exact hbyte colour b hq

end TileShape

/-! ## Accumulators -/

/-- An accumulator depends on its bias word, and on the activations and weights of the positions
that lie in the reduction. -/
theorem Portable.valuedAccumulator_congr {t : TileShape} {o o' : TileOperands}
    {value : UInt8 → Int32} {i j : ℕ} (hkc : o'.kc = o.kc) (hks : o'.ks = o.ks)
    (hbias : o'.weights.int32At (4 * j) = o.weights.int32At (4 * j))
    (hterm : ∀ tap < o.ks, ∀ block < blocks t o, ∀ step < t.sr, ∀ lane < t.kr,
      position t block step j lane < o.kc →
        o'.activation (tap * t.mr + i) (position t block step j lane) =
            o.activation (tap * t.mr + i) (position t block step j lane) ∧
          o'.weights.at0 (weightPosition t o tap block step j lane) =
            o.weights.at0 (weightPosition t o tap block step j lane)) :
    valuedAccumulator t o' value i j = valuedAccumulator t o value i j := by
  have hblocks : blocks t o' = blocks t o := by rw [blocks, blocks, hkc]
  rw [valuedAccumulator, valuedAccumulator, hbias, hks, hblocks]
  refine congrArg _ (sumBelow_congr fun tap htap ↦ sumBelow_congr fun block hblock ↦
    sumBelow_congr fun step hstep ↦ sumBelow_congr fun lane hlane ↦ ?_)
  have hposition : weightPosition t o' tap block step j lane =
      weightPosition t o tap block step j lane := by rw [weightPosition, weightPosition, hblocks]
  rw [valuedTerm, valuedTerm, hposition, hkc]
  split_ifs with hk
  · obtain ⟨hactivation, hweight⟩ := hterm tap htap block hblock step hstep lane hlane hk
    rw [hactivation, hweight]
  · rfl

/-! ## Calls that agree -/

/-- Calls of one size with the same parameters, whose rows and packed weights read the same wherever
a row, a column and a position of the reduction belong to the call. -/
structure Call.Agrees (call call' : Call) (t : TileShape) : Prop where
  mr : call'.mr = call.mr
  nc : call'.nc = call.nc
  kc : call'.kc = call.kc
  ks : call'.ks = call.ks
  cmStride : call'.cmStride = call.cmStride
  cnStride : call'.cnStride = call.cnStride
  params : call'.params = call.params
  activation {tap i k : ℕ} (htap : tap < call.ks) (hi : i < call.mr) (hk : k < call.kc) :
    call'.view.byteAt (tap * t.mr + i) k = call.view.byteAt (tap * t.mr + i) k
  bias {j r : ℕ} (hj : j < call.nc) (hr : r < 4) :
    call'.weights[j / t.nr * t.packedTileSize call.ks call.kc + 4 * (j % t.nr) + r]? =
      call.weights[j / t.nr * t.packedTileSize call.ks call.kc + 4 * (j % t.nr) + r]?
  weight {s : Slot} (hs : s.Valid ⟨call.nc, call.ks, call.kc⟩ t) (hchannel : s.channel t < call.nc)
    (hindex : s.index t < call.kc) :
    call'.weights[s.position ⟨call.nc, call.ks, call.kc⟩ t]? =
      call.weights[s.position ⟨call.nc, call.ks, call.kc⟩ t]?

namespace Call.Agrees

variable {t : TileShape} {call call' : Call} (h : call.Agrees call' t)

include h

theorem paint_eq (colour : ℕ → ℕ → UInt8) (b : Bytes) :
    t.paint call' colour b = t.paint call colour b := by
  unfold TileShape.paint TileShape.paintTile TileShape.paintRow TileShape.tileColumns
  rw [h.mr, h.nc, h.cmStride, h.cnStride]

/-- A lane of a column of the call reads a slot, and there the calls agree. -/
theorem at0_weightPosition (hnr : 0 < t.nr) (hkr : 0 < t.kr) (hsr : 0 < t.sr)
    {j tap block step lane : ℕ} (hj : j < call.nc) (htap : tap < call.ks)
    (hblock : block < Portable.blocks t (call.operands t (j / t.nr))) (hstep : step < t.sr)
    (hlane : lane < t.kr) (hk : Portable.position t block step (j % t.nr) lane < call.kc) :
    (call'.operands t (j / t.nr)).weights.at0
        (Portable.weightPosition t (call.operands t (j / t.nr)) tap block step (j % t.nr) lane) =
      (call.operands t (j / t.nr)).weights.at0
        (Portable.weightPosition t (call.operands t (j / t.nr)) tap block step (j % t.nr)
          lane) := by
  have hlt : Portable.weightPosition t (call.operands t (j / t.nr)) tap block step (j % t.nr) lane <
      t.packedTileSize call.ks call.kc :=
    Portable.weightPosition_lt hkr hsr htap hblock hstep (Nat.mod_lt j hnr) hlane
  rw [Portable.blocks_eq hkr hsr] at hblock
  let s : Slot := ⟨j / t.nr, tap, block * t.sr + step, j % t.nr, lane⟩
  have hvalid : s.Valid ⟨call.nc, call.ks, call.kc⟩ t :=
    { tile := div_lt_divideUp hnr hj
      tap := htap
      step := TileShape.steps_eq hkr _ ▸ block_add_lt hblock hstep
      column := Nat.mod_lt j hnr
      lane := hlane }
  have hchannel : s.channel t = j := Nat.div_add_mod' j t.nr
  have hindex : s.index t = Portable.position t block step (j % t.nr) lane :=
    TileShape.reductionIndex_block hkr hstep ..
  have hposition : s.position ⟨call.nc, call.ks, call.kc⟩ t =
      j / t.nr * t.packedTileSize call.ks call.kc +
        Portable.weightPosition t (call.operands t (j / t.nr)) tap block step (j % t.nr) lane := by
    rw [Slot.position, Portable.weightPosition, Portable.blocks_eq hkr hsr,
      ← TileShape.steps_mul hkr, TileShape.steps_eq hkr]
    change _ + (_ + (tap * (divideUp call.kc t.kBlock * t.sr * t.kr) * t.nr +
      ((block * t.sr + step) * t.nr + j % t.nr) * t.kr + lane)) =
      _ + (_ + ((((tap * divideUp call.kc t.kBlock + block) * t.sr + step) * t.nr + j % t.nr) *
        t.kr + lane))
    ring
  have hweight := h.weight hvalid (hchannel ▸ hj) (hindex ▸ hk)
  rw [hposition] at hweight
  rw [at0_operands _ hlt, at0_operands _ (by rwa [h.ks, h.kc]), h.ks, h.kc, Bytes.at0_eq, hweight,
    Bytes.at0_eq]

variable {size size' : ℕ} (hadmits : t.Admits call size) (hadmits' : t.Admits call' size')

include hadmits hadmits'

theorem valuedAccumulator_eq (hnr : 0 < t.nr) (hkr : 0 < t.kr) (hsr : 0 < t.sr)
    (value : UInt8 → Int32) {i j : ℕ} (hi : i < call.mr) (hj : j < call.nc) :
    Portable.valuedAccumulator t (call'.operands t (j / t.nr)) value i (j % t.nr) =
      Portable.valuedAccumulator t (call.operands t (j / t.nr)) value i (j % t.nr) := by
  have hmod := Nat.mod_lt j hnr
  have hrow := hi.trans_le hadmits.mr_le
  refine Portable.valuedAccumulator_congr h.kc h.ks ?_
    fun tap htap block hblock step hstep lane hlane hk ↦ ⟨?_, ?_⟩
  · rw [int32At_operands _ hmod, int32At_operands _ hmod, h.ks, h.kc]
    refine Bytes.int32At_congr fun r hr ↦ ?_
    rw [Bytes.at0_eq, h.bias hj hr, Bytes.at0_eq]
  · rw [activation_operands hadmits _ (block_add_lt htap hrow) hk,
      activation_operands hadmits' _ (h.ks ▸ block_add_lt htap hrow) (h.kc ▸ hk)]
    exact h.activation htap hi hk
  · exact h.at0_weightPosition hnr hkr hsr hj htap hblock hstep hlane hk

end Call.Agrees

/-! ## Runs -/

namespace Microkernel

variable {π : Type} {k : Microkernel π} {value : π → UInt8 → Int32}
  {stage : π → Int32 → Except Fault UInt8} {sound : π → Prop} {p : π} {host : Capabilities}
  {call call' : Call} {c b : Bytes}

theorem Accumulates.colour_eq (hk : k.Accumulates value stage sound) (hnr : 0 < k.shape.nr)
    (hkr : 0 < k.shape.kr) (hsr : 0 < k.shape.sr) (h : call.Agrees call' k.shape) {size size' : ℕ}
    (hadmits : k.shape.Admits call size) (hadmits' : k.shape.Admits call' size')
    (hcomputes : k.Computes p call) (hcomputes' : k.Computes p call') {i j : ℕ}
    (hi : i < call.mr) (hj : j < call.nc) : k.colour p call' i j = k.colour p call i j := by
  have hrow := hi.trans_le hadmits.mr_le
  have hbyte := hk.stage_colour hadmits hcomputes hnr hrow hj
  have hbyte' := hk.stage_colour hadmits' hcomputes' hnr hrow (h.nc ▸ hj)
  rw [h.valuedAccumulator_eq hadmits hadmits' hnr hkr hsr (value p) hi hj, hbyte] at hbyte'
  exact (Except.ok.inj hbyte').symm

end Microkernel

namespace Variant

theorem accepted_of_ok {v : Variant} (hv : v ∈ catalogue) {host : Capabilities} {call : Call}
    {c b : Bytes} (hrun : v.kernel host call c = .ok () b) :
    call.params.family = v.family ∧ v.shape.Admits call c.size ∧ host.supports v.isa = true := by
  rcases kernel_ends hv host call c with ⟨-, e, hrefused⟩ | ⟨haccepted, -⟩
  · rw [hrun] at hrefused
    cases hrefused
  · simpa [Refuses] using haccepted

/-- **Outputs depend on nothing else.** Where two calls agree and both succeed, each output has one
byte in both buffers, whatever else the two calls and their buffers hold, whatever the strides are
and whichever hosts they run on. -/
theorem kernel_noninterference {v : Variant} (hv : v ∈ catalogue) {host host' : Capabilities}
    {call call' : Call} (h : call.Agrees call' v.shape) {c c' b b' : Bytes}
    (hrun : v.kernel host call c = .ok () b) (hrun' : v.kernel host' call' c' = .ok () b') :
    ∀ i < call.mr, ∀ j < call.nc, ∃ x,
      b[outputPosition v.shape.nr call.cmStride call.cnStride i j]? = some x ∧
        b'[outputPosition v.shape.nr call.cmStride call.cnStride i j]? = some x := by
  intro i hi j hj
  obtain ⟨hown, hadmits, hhost⟩ := accepted_of_ok hv hrun
  obtain ⟨-, hadmits', hhost'⟩ := accepted_of_ok hv hrun'
  obtain ⟨-, hnr, hkr, hsr⟩ := shape_pos hv
  obtain ⟨π, _, _, k, value, stage, sound, hk⟩ := exists_implements hv
  rw [hk.isa_eq] at hhost hhost'
  rw [hk.shape_eq] at h hadmits hadmits' hnr hkr hsr ⊢
  rw [hk.kernel_eq] at hrun hrun'
  obtain ⟨p, hp⟩ := Params.exists_get (hown.trans hk.family_eq)
  obtain ⟨hcomputes, hin, rfl⟩ :=
    hk.accumulates.eq_paint_of_ok (hk.onlyOverflows p) hnr hp hhost hadmits hrun
  obtain ⟨hcomputes', hin', rfl⟩ :=
    hk.accumulates.eq_paint_of_ok (hk.onlyOverflows p) hnr (h.params ▸ hp) hhost' hadmits' hrun'
  -- the same store comes last in both runs
  obtain ⟨i', hi', j', hj', -, hpaint⟩ :=
    TileShape.exists_getElem?_paint (t := k.shape) hnr hi hj
  have hlt' := hin' i (h.mr ▸ hi) j (h.nc ▸ hj)
  rw [h.cmStride, h.cnStride] at hlt'
  refine ⟨k.colour p call i' j', hpaint _ _ (hin i hi j hj), ?_⟩
  rw [h.paint_eq, hpaint _ _ hlt', hk.accumulates.colour_eq hnr hkr hsr h hadmits hadmits' hcomputes
    hcomputes' hi' hj']

/-- One row and one column of two weights, for a tile of two rows and four columns in groups of
eight. All else is zero. -/
def sampleCleanCall : Call where
  mr := 1
  nc := 1
  kc := 2
  ks := 1
  view := ⟨#[.input 0, .zero], #[10, 20], #[0, 0], 0⟩
  weights := #[1, 0, 0, 0] ++ Array.replicate 12 0 ++ #[5, 6] ++ Array.replicate 30 0
  cmStride := 1
  cnStride := 4
  params := .simd (QuantizationArgs.simdParams ⟨3, .ofBits 0x3F000000, 100, 10, 250⟩)

/-- The same call with the row read from the zero buffer, and other bytes in all that is padding. -/
def sampleJunkCall : Call :=
  { sampleCleanCall with
    view := ⟨#[.zero, .input 0], #[7, 8, 9], #[10, 20, 99], 1⟩
    weights := #[1, 0, 0, 0] ++ Array.replicate 12 77 ++ #[5, 6] ++ Array.replicate 31 88 }

theorem sampleCleanCall_agrees : sampleCleanCall.Agrees sampleJunkCall ⟨2, 4, 8, 1⟩ where
  mr := rfl
  nc := rfl
  kc := rfl
  ks := rfl
  cmStride := rfl
  cnStride := rfl
  params := rfl
  activation {tap i k} htap hi hk := by
    obtain rfl : tap = 0 := Nat.lt_one_iff.mp htap
    obtain rfl : i = 0 := Nat.lt_one_iff.mp hi
    have hrow : ∀ k < 2, sampleJunkCall.view.byteAt 0 k = sampleCleanCall.view.byteAt 0 k := by
      decide
    exact hrow k hk
  bias {j r} hj hr := by
    obtain rfl : j = 0 := Nat.lt_one_iff.mp hj
    have hword : ∀ r < 4, sampleJunkCall.weights[0 + r]? = sampleCleanCall.weights[0 + r]? := by
      decide
    exact hword r hr
  weight {s} hs hchannel hindex := by
    obtain ⟨tile, tap, step, column, lane⟩ := s
    obtain rfl : tile = 0 := Nat.lt_one_iff.mp hs.tile
    obtain rfl : tap = 0 := Nat.lt_one_iff.mp hs.tap
    obtain rfl : step = 0 := Nat.lt_one_iff.mp hs.step
    obtain rfl : column = 0 := by simpa [Slot.channel, sampleCleanCall] using hchannel
    have hlanes : ∀ lane < 8, (⟨0, 0, 0, 0, lane⟩ : Slot).index ⟨2, 4, 8, 1⟩ < 2 →
        let position := (⟨0, 0, 0, 0, lane⟩ : Slot).position ⟨1, 1, 2⟩ ⟨2, 4, 8, 1⟩
        sampleJunkCall.weights[position]? = sampleCleanCall.weights[position]? := by
      decide
    exact hlanes lane hs.lane hindex

theorem sampleCleanCall_noninterference :
    ∃ b b',
      (vector (FourColumn.microkernel .sse2 2)).kernel (.x86Host 1) sampleCleanCall #[0] =
        .ok () b ∧
      (vector (FourColumn.microkernel .sse2 2)).kernel (.x86Host 1) sampleJunkCall #[55, 66] =
        .ok () b' ∧
      ∃ x, b[0]? = some x ∧ b'[0]? = some x := by
  have hv : vector (FourColumn.microkernel .sse2 2) ∈ catalogue := by
    simp [catalogue, vectorVariants]
  have hp : (vector (FourColumn.microkernel .sse2 2)).derive
      ⟨3, .ofBits 0x3F000000, 100, 10, 250⟩ = .ok sampleCleanCall.params := by decide +kernel
  have hhost : Capabilities.supports (.x86Host 1) .sse2 := rfl
  have hclean : TileShape.Admits ⟨2, 4, 8, 1⟩ sampleCleanCall (#[0] : Bytes).size :=
    TileShape.check_eq_ok_iff.mp rfl
  have hjunk : TileShape.Admits ⟨2, 4, 8, 1⟩ sampleJunkCall (#[55, 66] : Bytes).size :=
    TileShape.check_eq_ok_iff.mp rfl
  obtain ⟨b, hrun⟩ : ∃ b, (vector (FourColumn.microkernel .sse2 2)).kernel (.x86Host 1)
      sampleCleanCall #[0] = .ok () b := ⟨_, kernel_eq_ok hv hhost hp hclean (Or.inr (by decide))⟩
  obtain ⟨b', hrun'⟩ : ∃ b, (vector (FourColumn.microkernel .sse2 2)).kernel (.x86Host 1)
      sampleJunkCall #[55, 66] = .ok () b :=
    ⟨_, kernel_eq_ok hv hhost hp hjunk (Or.inr (by decide))⟩
  exact ⟨b, b', hrun, hrun', kernel_noninterference hv sampleCleanCall_agrees hrun hrun' 0
    (by decide) 0 (by decide)⟩

end Variant

end QuantizedGemm
