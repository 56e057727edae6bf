import QuantizedGemm.Kernel.Portable
import QuantizedGemm.Proofs.Kernel.Run
import QuantizedGemm.Proofs.Packing
import QuantizedGemm.Proofs.Quantization.Agreement

/-!
# The portable kernel computes convolutions

On packed weights the portable kernel arrives at the accumulators of the unpacked filter
(`Portable.valuedAccumulator_operands`), however the packing groups and rotates the reduction. The
bias word brings what the input zero point takes off; the zero point of the weights is taken off on
the way; and padding adds nothing.

## Checked and valued accumulators

The kernel computes with checks, and its loops stop at the first one that fails. For proofs about
numbers there is `Portable.valuedAccumulator` beside it, the plain sum in which a weight counts as
some value. On complete operands the checked loops arrive at this sum unless a zero point is no
byte, and a zero point of derived parameters is one. The proof follows the loops: a term has room, a
step adds its terms, and so on up to the tile.

## From the packed order to the plain one

The sum runs over taps, steps and lanes. Each lane has a position of the reduction, and in every
column all positions come up once, so that the sum over steps and lanes is one over positions
(`Portable.tap_eq`). What the zero points add to it depends on the weights alone, and the bias word
was made to hold exactly that.
-/

namespace QuantizedGemm

open Finset

/-- The accumulator of a channel over a window of activations, as one integer that is reduced to 32
bits. -/
def Filter.accumulator (f : Filter) (zp : ZeroPoints) (activation : ℕ → ℕ → UInt8)
    (channel : ℕ) : Int32 :=
  Int32.ofInt ((f.biasAt channel).toInt + ∑ tap ∈ range f.ks, ∑ k ∈ range f.kc,
    ((activation tap k).toNat - zp.input.toNat : ℤ) *
      ((f.weight channel tap k).toNat - zp.kernel.toNat))

/-! ## The weights of a tile -/

section TileWeights

variable {t : TileShape} {call : Call} {size : ℕ}

theorem getElem?_operands (tile : ℕ) {r : ℕ} (hr : r < t.packedTileSize call.ks call.kc) :
    (call.operands t tile).weights[r]? =
      call.weights[tile * t.packedTileSize call.ks call.kc + r]? := by
  rw [Call.operands, Array.getElem?_extract]
  split_ifs with hlt
  · rfl
  · rw [Nat.succ_mul] at hlt
    exact (Array.getElem?_eq_none (by omega)).symm

theorem at0_operands (tile : ℕ) {r : ℕ} (hr : r < t.packedTileSize call.ks call.kc) :
    (call.operands t tile).weights.at0 r =
      call.weights.at0 (tile * t.packedTileSize call.ks call.kc + r) := by
  rw [Bytes.at0_eq, getElem?_operands tile hr, Bytes.at0_eq]

theorem int32At_operands (tile : ℕ) {j : ℕ} (hj : j < t.nr) :
    (call.operands t tile).weights.int32At (4 * j) =
      call.weights.int32At (tile * t.packedTileSize call.ks call.kc + 4 * j) := by
  have hbias := TileShape.mul_four_le_packedTileSize t call.ks call.kc
  refine Bytes.int32At_congr fun k hk ↦ ?_
  rw [at0_operands tile (by omega), Nat.add_assoc]

end TileWeights

theorem TileOperands.Complete.readAt_rows {t : TileShape} {o : TileOperands} (h : o.Complete t)
    {row : ℕ} (hrow : row < o.ks * t.mr) :
    readAt o.rows row = .ok (o.rows.getD row #[]) ∧ (o.rows.getD row #[]).size = o.kc := by
  have hlt : row < o.rows.size := h.size_rows ▸ hrow
  rw [readAt_eq_ok hlt, Array.getElem_eq_getD]
  exact ⟨rfl, h.size_row (Array.getElem_eq_getD #[] ▸ Array.getElem_mem hlt)⟩

theorem TileOperands.Complete.readInt32_bias {t : TileShape} {o : TileOperands} (h : o.Complete t)
    {j : ℕ} (hj : j < t.nr) :
    o.weights.readInt32 (4 * j) = .ok (o.weights.int32At (4 * j)) := by
  have hbias := TileShape.mul_four_le_packedTileSize t o.ks o.kc
  refine Bytes.readInt32_eq_ok ?_
  rw [h.size_weights]
  omega

namespace Portable

/-! ## What a weight counts for -/

section Valued

variable (t : TileShape) (o : TileOperands) (value : UInt8 → Int32)

/-- What one lane adds to the accumulator of a row, if a weight counts as its value. -/
def valuedTerm (i tap block step j lane : ℕ) : Int32 :=
  if position t block step j lane < o.kc then
    byteToInt32 (o.activation (tap * t.mr + i) (position t block step j lane)) *
      value (o.weights.at0 (weightPosition t o tap block step j lane))
  else 0

/-- The accumulator of row `i` and column `j`, if a weight counts as its value. -/
def valuedAccumulator (i j : ℕ) : Int32 :=
  o.weights.int32At (4 * j) +
    sumBelow o.ks fun tap ↦ sumBelow (blocks t o) fun block ↦ sumBelow t.sr fun step ↦
      sumBelow t.kr fun lane ↦ valuedTerm t o value i tap block step j lane

end Valued

def lessZero (zeroPoint : Int32) (weight : UInt8) : Int32 := byteToInt32 weight - zeroPoint

/-- A zero point that is a byte, as those of derived parameters are. -/
def IsByte (zeroPoint : Int32) : Prop := ∃ b : UInt8, zeroPoint = byteToInt32 b

@[simp] theorem toInt_lessZero (z w : UInt8) :
    (lessZero (byteToInt32 z) w).toInt = w.toNat - z.toNat := by
  have hw := w.toNat_lt
  have hz := z.toNat_lt
  rw [lessZero, byteToInt32_eq, byteToInt32_eq, ← Int32.ofInt_sub, toInt_ofInt_of_fits]
  exact ⟨by omega, by omega⟩

theorem fits_mul_lessZero (a z w : UInt8) :
    Fits32 ((byteToInt32 a).toInt * (lessZero (byteToInt32 z) w).toInt) := by
  have hw := w.toNat_lt
  have hz := z.toNat_lt
  have ha : (byteToInt32 a).toInt.natAbs ≤ 255 := by
    rw [toInt_byteToInt32, Int.natAbs_natCast]
    exact Nat.le_of_lt_succ a.toNat_lt
  have hvalue : (lessZero (byteToInt32 z) w).toInt.natAbs ≤ 255 := by
    rw [toInt_lessZero]
    omega
  have hmul := Nat.mul_le_mul ha hvalue
  rw [← Int.natAbs_mul] at hmul
  exact ⟨by omega, by omega⟩

/-! ## Reads -/

variable {t : TileShape} {o : TileOperands}

theorem blocks_eq (hkr : 0 < t.kr) (hsr : 0 < t.sr) (o : TileOperands) :
    blocks t o = divideUp o.kc t.kBlock := by
  rw [blocks, TileShape.paddedDepth, roundUp, Nat.mul_div_cancel _ (TileShape.kBlock_pos hkr hsr)]

/-- Every weight that the portable kernel reads lies in the packed tile, padding included. -/
theorem weightPosition_lt (hkr : 0 < t.kr) (hsr : 0 < t.sr) {tap block step j lane : ℕ}
    (htap : tap < o.ks) (hblock : block < blocks t o) (hstep : step < t.sr) (hj : j < t.nr)
    (hlane : lane < t.kr) :
    weightPosition t o tap block step j lane < t.packedTileSize o.ks o.kc := by
  have hlt := block_add_lt (block_add_lt (block_add_lt (block_add_lt htap hblock) hstep) hj) hlane
  rw [weightPosition, TileShape.packedTileSize, TileShape.paddedDepth, roundUp,
    ← blocks_eq hkr hsr, TileShape.kBlock]
  calc 4 * t.nr + ((((tap * blocks t o + block) * t.sr + step) * t.nr + j) * t.kr + lane)
      < 4 * t.nr + o.ks * blocks t o * t.sr * t.nr * t.kr := Nat.add_lt_add_left hlt _
    _ = t.nr * (4 + o.ks * (blocks t o * (t.kr * t.sr))) := by ring

/-! ## Checked accumulators -/

section Checked

variable (hkr : 0 < t.kr) (hsr : 0 < t.sr) (ho : o.Complete t) {zeroPoint : Int32} {i j : ℕ}
  (hi : i < t.mr) (hj : j < t.nr)

include hkr hsr ho hi hj

/-- On complete operands a term does not go out of bounds. It has room if the zero point is a
byte. -/
theorem unlessOverflow_term {tap block step lane : ℕ} (htap : tap < o.ks)
    (hblock : block < blocks t o) (hstep : step < t.sr) (hlane : lane < t.kr) :
    UnlessOverflow (¬IsByte zeroPoint) (term t o zeroPoint i tap block step j lane)
      (valuedTerm t o (lessZero zeroPoint) i tap block step j lane) := by
  have hweight : weightPosition t o tap block step j lane < o.weights.size :=
    ho.size_weights ▸ weightPosition_lt hkr hsr htap hblock hstep hj hlane
  obtain ⟨hrow, hsize⟩ := ho.readAt_rows (block_add_lt htap hi)
  rw [term, readAt_eq_at0 hweight, valuedTerm]
  generalize o.weights.at0 (weightPosition t o tap block step j lane) = w
  have hw := w.toNat_lt
  refine .bind (.of_eq rfl) (.bind (.checkedSub fun hbyte ↦ ?_) ?_)
  · obtain ⟨z, rfl⟩ := not_not.mp hbyte
    have hz := z.toNat_lt
    rw [toInt_byteToInt32, toInt_byteToInt32]
    exact ⟨by omega, by omega⟩
  · dsimp only
    split_ifs with hk
    · rw [hrow]
      refine .bind (.of_eq rfl) (.bind (.of_eq (readAt_eq_at0 (hsize ▸ hk))) ?_)
      refine .checkedMul fun hbyte ↦ ?_
      obtain ⟨z, rfl⟩ := not_not.mp hbyte
      exact fits_mul_lessZero _ z w
    · exact .of_eq rfl

theorem unlessOverflow_accumulator :
    UnlessOverflow (¬IsByte zeroPoint) (accumulator t o zeroPoint i j)
      (valuedAccumulator t o (lessZero zeroPoint) i j) := by
  rw [accumulator, ho.readInt32_bias hj]
  refine .bind (.of_eq rfl) (.bind ?_ (.of_eq rfl))
  exact .sumEach fun tap htap ↦ .sumEach fun block hblock ↦ .sumEach fun step hstep ↦
    .sumEach fun lane hlane ↦
      unlessOverflow_term hkr hsr ho hi hj htap hblock hstep hlane

end Checked

/-! ## Accumulators of packed weights -/

section Packed

variable {f : Filter} {zp : ZeroPoints} {target : Bytes} {call : Call}

/-- What a position of the padded reduction adds to an accumulator. -/
private def product (f : Filter) (zp : ZeroPoints) (activation : ℕ → ℕ → UInt8)
    (channel tap k : ℕ) : ℤ :=
  if k < f.kc then
    ((activation tap k).toNat : ℤ) * ((f.weight channel tap k).toNat - zp.kernel.toNat)
  else 0

/-- The part of a product that is the same for all activations is what the bias word holds back. -/
private theorem product_of_lt {activation : ℕ → ℕ → UInt8} {channel tap k : ℕ} (hk : k < f.kc) :
    product f zp activation channel tap k =
      ((activation tap k).toNat - zp.input.toNat : ℤ) *
        ((f.weight channel tap k).toNat - zp.kernel.toNat) +
      ((f.weight channel tap k).toNat * zp.input.toNat - zp.input.toNat * zp.kernel.toNat) := by
  rw [product, if_pos hk]
  ring

variable (hpack : f.pack t zp target = .ok call.weights)
  (hshape : f.toFilterShape = ⟨call.nc, call.ks, call.kc⟩)

include hpack hshape

private theorem at0_weightPosition {j tap block step lane : ℕ} (hj : j < call.nc)
    (htap : tap < call.ks) (hblock : block < divideUp call.kc t.kBlock) (hstep : step < t.sr)
    (hlane : lane < t.kr) :
    (call.operands t (j / t.nr)).weights.at0
        (weightPosition t (call.operands t (j / t.nr)) tap block step (j % t.nr) lane) =
      (f.placed t (j / t.nr) tap (block * t.sr + step) (j % t.nr) lane).getD zp.kernel := by
  obtain ⟨hnr, hkr, hsr, -⟩ := (Filter.pack_eq_ok_iff.mp hpack).1
  have hnc : f.nc = call.nc := congrArg FilterShape.nc hshape
  have hks : f.ks = call.ks := congrArg FilterShape.ks hshape
  have hkc : f.kc = call.kc := congrArg FilterShape.kc hshape
  have hindex : block * t.sr + step < t.steps f.kc := by
    rw [TileShape.steps_eq hkr, hkc]
    exact block_add_lt hblock hstep
  have hposition : weightPosition t (call.operands t (j / t.nr)) tap block step (j % t.nr) lane =
      f.bodyPosition t tap (block * t.sr + step) (j % t.nr) lane := by
    rw [weightPosition, blocks_eq hkr hsr, Filter.bodyPosition, TileShape.steps_eq hkr, hkc]
    change 4 * t.nr + ((((tap * divideUp call.kc t.kBlock + block) * t.sr + step) * t.nr +
      j % t.nr) * t.kr + lane) = _
    ring
  have hlt := Filter.bodyPosition_lt hkr (hks ▸ htap) hindex (Nat.mod_lt j hnr) hlane
  have hbyte := Filter.getElem?_pack_body hpack (div_lt_divideUp hnr (hnc ▸ hj)) (hks ▸ htap)
    hindex (Nat.mod_lt j hnr) hlane
  rw [hks, hkc] at hlt hbyte
  rw [hposition, at0_operands _ hlt, Bytes.at0_eq_of_getElem? hbyte]

variable {size : ℕ} (h : t.Admits call size)

include h

/-- A lane adds the product at its own reduction position. -/
private theorem valuedTerm_eq {i j tap block step lane : ℕ} (hi : i < t.mr) (hj : j < call.nc)
    (htap : tap < call.ks) (hblock : block < divideUp call.kc t.kBlock) (hstep : step < t.sr)
    (hlane : lane < t.kr) :
    valuedTerm t (call.operands t (j / t.nr)) (lessZero (byteToInt32 zp.kernel)) i tap block step
        (j % t.nr) lane =
      Int32.ofInt (product f zp (fun tap k ↦ call.view.byteAt (tap * t.mr + i) k) j tap
        (block * t.kBlock + (step * t.kr + lane + j % t.nr * t.kr) % t.kBlock)) := by
  have hkr := (Filter.pack_eq_ok_iff.mp hpack).1.kr_pos
  have hnc : f.nc = call.nc := congrArg FilterShape.nc hshape
  have hkc : f.kc = call.kc := congrArg FilterShape.kc hshape
  have hrow := block_add_lt htap hi
  rw [← TileShape.reductionIndex_block hkr hstep]
  unfold valuedTerm product
  simp only [at0_weightPosition hpack hshape hj htap hblock hstep hlane]
  rw [position, ← TileShape.reductionIndex_block hkr hstep, Filter.placed_eq, Nat.div_add_mod' j,
    hkc, Call.operands_kc]
  split_ifs with hk hplaced
  · rw [activation_operands h _ hrow hk, Option.getD_some, lessZero, byteToInt32_eq, byteToInt32_eq,
      byteToInt32_eq, Int32.ofInt_mul, Int32.ofInt_sub]
  · exact absurd ⟨hnc ▸ hj, hk⟩ hplaced
  · rfl

/-- The steps of a tap add its products, each position of the reduction once. -/
private theorem tap_eq {i j tap : ℕ} (hi : i < t.mr) (hj : j < call.nc) (htap : tap < call.ks) :
    (sumBelow (blocks t (call.operands t (j / t.nr))) fun block ↦ sumBelow t.sr fun step ↦
      sumBelow t.kr fun lane ↦ valuedTerm t (call.operands t (j / t.nr))
        (lessZero (byteToInt32 zp.kernel)) i tap block step (j % t.nr) lane) =
    Int32.ofInt (∑ k ∈ range call.kc,
      product f zp (fun tap k ↦ call.view.byteAt (tap * t.mr + i) k) j tap k) := by
  obtain ⟨-, hkr, hsr, -⟩ := (Filter.pack_eq_ok_iff.mp hpack).1
  have hkc : f.kc = call.kc := congrArg FilterShape.kc hshape
  have hpad : ∀ k, call.kc ≤ k →
      product f zp (fun tap k ↦ call.view.byteAt (tap * t.mr + i) k) j tap k = 0 :=
    fun k hk ↦ if_neg (by omega)
  rw [blocks_eq hkr hsr, ← TileShape.sum_paddedDepth hkr hsr hpad,
    ← TileShape.sum_blocks t _ (j % t.nr)]
  exact sumBelow_eq_ofInt fun block hblock ↦ sumBelow_eq_ofInt fun step hstep ↦
    sumBelow_eq_ofInt fun lane hlane ↦ valuedTerm_eq hpack hshape h hi hj htap hblock hstep hlane

/-- The packed computation of a tile arrives at the accumulators of the filter. -/
theorem valuedAccumulator_operands {i j : ℕ} (hi : i < t.mr) (hj : j < call.nc) :
    valuedAccumulator t (call.operands t (j / t.nr)) (lessZero (byteToInt32 zp.kernel)) i
        (j % t.nr) =
      f.accumulator zp (fun tap k ↦ call.view.byteAt (tap * t.mr + i) k) j := by
  have hnr := (Filter.pack_eq_ok_iff.mp hpack).1.nr_pos
  have hnc : f.nc = call.nc := congrArg FilterShape.nc hshape
  have hks : f.ks = call.ks := congrArg FilterShape.ks hshape
  have hkc : f.kc = call.kc := congrArg FilterShape.kc hshape
  have hbias := Filter.int32At_pack_bias hpack (div_lt_divideUp hnr (hnc ▸ hj)) (Nat.mod_lt j hnr)
  rw [Filter.foldedBias, Nat.div_add_mod', Filter.weightSum, if_pos (hnc ▸ hj), hks, hkc] at hbias
  rw [valuedAccumulator, int32At_operands _ (Nat.mod_lt j hnr), hbias, Call.operands_ks,
    sumBelow_eq_ofInt fun tap htap ↦ tap_eq hpack hshape h hi hj htap, ← Int32.ofInt_add,
    Filter.accumulator, hks, hkc]
  refine congrArg Int32.ofInt ?_
  have hproduct : ∀ tap, ∀ k ∈ range call.kc,
      product f zp (fun tap k ↦ call.view.byteAt (tap * t.mr + i) k) j tap k = _ :=
    fun tap k hk ↦ product_of_lt (hkc ▸ mem_range.mp hk)
  rw [sum_congr rfl fun tap _ ↦ sum_congr rfl (hproduct tap)]
  simp only [sum_add_distrib, sum_sub_distrib, ← sum_mul, sum_const, card_range, nsmul_eq_mul]
  ring

end Packed

/-! ## Tiles -/

end Portable

/-- A tile computation whose bytes are a stage of accumulators, in which a weight counts as its
value. With sound parameters it arrives at a tile. -/
structure Microkernel.Accumulates {π : Type} (k : Microkernel π) (value : π → UInt8 → Int32)
    (stage : π → Int32 → Except Fault UInt8) (sound : π → Prop) : Prop where
  exists_out {p : π} {o : TileOperands} (ho : o.Complete k.shape) (hp : sound p) :
    ∃ out, k.compute p o = .ok out
  size_out {p : π} {o : TileOperands} {out : Array Bytes} (ho : o.Complete k.shape)
    (hout : k.compute p o = .ok out) : out.size = k.shape.mr
  byte_out {p : π} {o : TileOperands} {out : Array Bytes} (ho : o.Complete k.shape)
    (hout : k.compute p o = .ok out) {i j : ℕ} (hi : i < k.shape.mr) (hj : j < k.shape.nr) :
    ∃ y, (out.getD i #[])[j]? = some y ∧
      stage p (Portable.valuedAccumulator k.shape o (value p) i j) = .ok y

/-- Parameters with which an output stage has room for everything: the zero point is a byte, and
every accumulator has an output. -/
structure OutputStage.Sound {π : Type} [OutputStage π] (p : π) : Prop where
  zeroPoint : Portable.IsByte (kernelZeroPoint p)
  output (acc : Int32) : ∃ y, requantize p acc = .ok y

namespace Portable

variable {π : Type} [OutputStage π] {p : π}

private theorem lane_eq_ok_iff (hkr : 0 < t.kr) (hsr : 0 < t.sr) (ho : o.Complete t) {i j : ℕ}
    (hi : i < t.mr) (hj : j < t.nr) {y : UInt8} (hlane : (do
      OutputStage.requantize p (← accumulator t o (OutputStage.kernelZeroPoint p) i j)) = .ok y) :
    OutputStage.requantize p
      (valuedAccumulator t o (lessZero (OutputStage.kernelZeroPoint p)) i j) = .ok y := by
  obtain ⟨acc, hacc, hstage⟩ := bind_eq_ok_iff.mp hlane
  rwa [(unlessOverflow_accumulator hkr hsr ho hi hj).eq_of_ok hacc] at hstage

theorem microkernel_accumulates (hkr : 0 < t.kr) (hsr : 0 < t.sr) (π : Type) [OutputStage π] :
    (microkernel t π).Accumulates (fun p ↦ lessZero (OutputStage.kernelZeroPoint p))
      OutputStage.requantize OutputStage.Sound where
  exists_out {p o} ho hp := by
    have hlane : ∀ i < t.mr, ∀ j < t.nr, ∃ y, (do
        OutputStage.requantize p (← accumulator t o (OutputStage.kernelZeroPoint p) i j)) =
          .ok y := by
      intro i hi j hj
      have hacc := (unlessOverflow_accumulator hkr hsr ho hi hj).eq_ok (not_not.mpr hp.zeroPoint)
      rw [hacc]
      exact hp.output _
    exact exists_tabulate fun i hi ↦ exists_tabulate (hlane i hi)
  size_out _ hout := (tabulate_eq_ok_iff.mp hout).1
  byte_out {p o out} ho hout i j hi hj := by
    obtain ⟨row, hrow, hget⟩ := (tabulate_eq_ok_iff.mp hout).2 i hi
    obtain ⟨y, hy, hbyte⟩ := (tabulate_eq_ok_iff.mp hrow).2 j hj
    refine ⟨y, ?_, lane_eq_ok_iff hkr hsr ho hi hj hy⟩
    rwa [Array.getD_eq_getD_getElem?, hget]

end Portable

/-! ## Runs -/

namespace Microkernel.Accumulates

variable {π : Type} {k : Microkernel π} {value : π → UInt8 → Int32}
  {stage : π → Int32 → Except Fault UInt8} {sound : π → Prop} {p : π} {host : Capabilities}
  {call : Call} {c : Bytes} (hk : k.Accumulates value stage sound)

include hk

theorem computes_of_exists {size : ℕ} (h : k.shape.Admits call size)
    (hout : ∀ tile < k.shape.columnTiles call.nc,
      ∃ out, k.compute p (call.operands k.shape tile) = .ok out) : k.Computes p call := by
  intro tile htile
  obtain ⟨out, hout⟩ := hout tile htile
  rw [tileOutput_of_ok hout]
  exact ⟨hout, hk.size_out (Call.operands_complete h htile) hout⟩

theorem computes_of_sound {size : ℕ} (h : k.shape.Admits call size) (hp : sound p) :
    k.Computes p call :=
  hk.computes_of_exists h fun _ htile ↦ hk.exists_out (Call.operands_complete h htile) hp

theorem stage_colour {size : ℕ} (h : k.shape.Admits call size) (hcomputes : k.Computes p call)
    (hnr : 0 < k.shape.nr) {i j : ℕ} (hi : i < k.shape.mr) (hj : j < call.nc) :
    stage p (Portable.valuedAccumulator k.shape (call.operands k.shape (j / k.shape.nr)) (value p)
      i (j % k.shape.nr)) = .ok (k.colour p call i j) := by
  have htile := div_lt_divideUp hnr hj
  obtain ⟨y, hbyte, hstage⟩ := hk.byte_out (Call.operands_complete h htile)
    (hcomputes _ htile).1 hi (Nat.mod_lt j hnr)
  rw [hstage, colour, Bytes.at0_eq_of_getElem? hbyte]

/-- An admitted call with disjoint strides succeeds if its parameters are sound. If it succeeds,
then every output is the stage of its accumulator. -/
theorem kernel_writes [ParamsFamily π] (hp : call.params.get π = .ok p)
    (hhost : host.supports k.isa) (h : k.shape.Admits call c.size) (hnr : 0 < k.shape.nr)
    (hstrides : StridesDisjoint call.mr call.nc k.shape.nr call.cmStride call.cnStride) :
    (sound p → ∃ c', k.kernel host call c = .ok () c') ∧
    ∀ c', k.kernel host call c = .ok () c' → ∀ i < call.mr, ∀ j < call.nc, ∃ y,
      stage p (Portable.valuedAccumulator k.shape (call.operands k.shape (j / k.shape.nr))
        (value p) i (j % k.shape.nr)) = .ok y ∧
      c'[outputPosition k.shape.nr call.cmStride call.cnStride i j]? = some y := by
  constructor
  · intro hsound
    obtain ⟨c', hrun, -⟩ := Microkernel.kernel_writes hp hhost h (hk.computes_of_sound h hsound)
      hnr hstrides
    exact ⟨c', hrun⟩
  · intro c' hrun i hi j hj
    have hcomputes := hk.computes_of_exists h fun tile htile ↦
      exists_compute_of_ok hp hhost h hrun htile
    obtain ⟨b, hrun', hout⟩ := Microkernel.kernel_writes hp hhost h hcomputes hnr hstrides
    cases hrun'.symm.trans hrun
    exact ⟨_, hk.stage_colour h hcomputes hnr (hi.trans_le h.mr_le) hj, hout i hi j hj⟩

end Microkernel.Accumulates

/-- Three channels of one tap and three weights. -/
def sampleFilter : Filter := ⟨⟨3, 1, 3⟩, #[1, 2, 3, 4, 5, 6, 7, 8, 9], some #[100, -200, 300]⟩

/-- Two rows, one of them padding, for a tile of two rows and two columns. -/
def sampleCall : Call where
  mr := 2
  nc := 3
  kc := 3
  ks := 1
  view := ⟨#[.input 1, .zero], #[0, 0, 10, 20, 30], #[5, 5, 5], 1⟩
  weights := #[]
  cmStride := 4
  cnStride := 2
  params := .lrintf (QuantizationArgs.lrintfParams ⟨3, .ofBits 0x3F000000, 100, 10, 250⟩)

end QuantizedGemm
