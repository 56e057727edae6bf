import Mathlib.Algebra.Order.BigOperators.Group.Finset
import QuantizedGemm.Packing
import QuantizedGemm.Proofs.Bytes
import QuantizedGemm.Proofs.Checked
import QuantizedGemm.Proofs.Tile

/-!
# The packed layout

What packing arrives at, apart from how it gets there: `Filter.packedLayout` is the bytes of all
tiles, in which the bias word of a column is one integer, reduced to 32 bits.

## The bias word

The groups of a column cover its reduction once, so the shares of all groups add up to the sum of
all weights of the channel times the input zero point (`Filter.sum_groupWeight`). Only this sum
wraps. The share of one group is computed without wrapping, and packing overflows exactly if some
group has no room (`Filter.Fits`), which takes groups of more than `33025` weights
(`Filter.fits_of_kr_lt`).

## Main statements

* `Filter.pack_eq_ok_iff`: when packing succeeds, and what is left of the target buffer.
* `Filter.pack_eq_overflow`: otherwise it refuses its arguments, or a group has no room.
* `Filter.getElem?_pack_body`, `Filter.int32At_pack_bias`: where the weight of each lane and the
  bias word of each column lie.
-/

namespace QuantizedGemm

open Finset

/-! ## Lengths -/

theorem TileShape.mul_four_le_packedTileSize (t : TileShape) (ks kc : ℕ) :
    4 * t.nr ≤ t.packedTileSize ks kc := by
  rw [packedTileSize, Nat.mul_comm 4]
  exact Nat.mul_le_mul_left t.nr (Nat.le_add_right ..)

namespace Filter

/-- The sum of the weights of a channel, zero for a channel that the filter does not have. -/
def weightSum (f : Filter) (channel : ℕ) : ℤ :=
  if channel < f.nc then
    ∑ tap ∈ range f.ks, ∑ k ∈ range f.kc, ((f.weight channel tap k).toNat : ℤ)
  else 0

/-- The bias word of a channel, in which the zero points are folded. -/
def foldedBias (f : Filter) (zp : ZeroPoints) (channel : ℕ) : Int32 := Int32.ofInt
  ((f.biasAt channel).toInt + f.ks * f.kc * zp.input.toNat * zp.kernel.toNat -
    zp.input.toNat * f.weightSum channel)

def biasBytes (f : Filter) (t : TileShape) (zp : ZeroPoints) (tile : ℕ) : List UInt8 :=
  (List.range t.nr).flatMap fun j ↦ int32Bytes (f.foldedBias zp (tile * t.nr + j))

def tileBytes (f : Filter) (t : TileShape) (zp : ZeroPoints) (tile : ℕ) : List UInt8 :=
  f.biasBytes t zp tile ++ f.packedBody t zp tile

/-- The bytes of all tiles, one after the other. -/
def packedLayout (f : Filter) (t : TileShape) (zp : ZeroPoints) : List UInt8 :=
  (List.range (t.columnTiles f.nc)).flatMap fun tile ↦ f.tileBytes t zp tile

variable {f : Filter} {t : TileShape} {zp : ZeroPoints}

@[simp] theorem length_biasBytes (tile : ℕ) : (f.biasBytes t zp tile).length = t.nr * 4 :=
  List.length_flatMap_range fun _ _ ↦ length_int32Bytes _

private def stepBytes (f : Filter) (t : TileShape) (zp : ZeroPoints) (tile tap step : ℕ) :
    List UInt8 :=
  (List.range t.nr).flatMap fun j ↦
    (List.range t.kr).map fun lane ↦ (f.placed t tile tap step j lane).getD zp.kernel

private theorem length_stepBytes (tile tap step : ℕ) :
    (stepBytes f t zp tile tap step).length = t.nr * t.kr :=
  List.length_flatMap_range fun _ _ ↦ by simp

private def tapBytes (f : Filter) (t : TileShape) (zp : ZeroPoints) (tile tap : ℕ) : List UInt8 :=
  (List.range (t.steps f.kc)).flatMap fun step ↦ stepBytes f t zp tile tap step

private theorem length_tapBytes (tile tap : ℕ) :
    (tapBytes f t zp tile tap).length = t.steps f.kc * (t.nr * t.kr) :=
  List.length_flatMap_range fun _ _ ↦ length_stepBytes ..

@[simp] theorem length_packedBody (tile : ℕ) :
    (f.packedBody t zp tile).length = f.ks * (t.steps f.kc * (t.nr * t.kr)) :=
  List.length_flatMap_range fun _ _ ↦ length_tapBytes ..

theorem length_tileBytes (hkr : 0 < t.kr) (tile : ℕ) :
    (f.tileBytes t zp tile).length = t.packedTileSize f.ks f.kc := by
  rw [tileBytes, List.length_append, length_biasBytes, length_packedBody, TileShape.packedTileSize,
    ← TileShape.steps_mul hkr]
  ring

theorem length_packedLayout (hkr : 0 < t.kr) :
    (f.packedLayout t zp).length = t.packedSize f.toFilterShape :=
  List.length_flatMap_range fun tile _ ↦ length_tileBytes hkr tile

/-! ## Positions -/

/-- Where the weight of a lane lies in a packed tile, behind the bias words. -/
def bodyPosition (f : Filter) (t : TileShape) (tap step j lane : ℕ) : ℕ :=
  t.nr * 4 + (((tap * t.steps f.kc + step) * t.nr + j) * t.kr + lane)

variable {tile tap step j lane : ℕ}

theorem getElem?_packedBody (htap : tap < f.ks) (hstep : step < t.steps f.kc) (hj : j < t.nr)
    (hlane : lane < t.kr) :
    (f.packedBody t zp tile)[((tap * t.steps f.kc + step) * t.nr + j) * t.kr + lane]? =
      some ((f.placed t tile tap step j lane).getD zp.kernel) := by
  have hcolumn := block_add_lt hj hlane
  have hgroup := block_add_lt hstep hcolumn
  have hpos : ((tap * t.steps f.kc + step) * t.nr + j) * t.kr + lane =
      tap * (t.steps f.kc * (t.nr * t.kr)) + (step * (t.nr * t.kr) + (j * t.kr + lane)) := by
    ring
  have htaps : f.packedBody t zp tile = (List.range f.ks).flatMap (tapBytes f t zp tile) := rfl
  rw [hpos, htaps, List.getElem?_flatMap_range (fun _ _ ↦ length_tapBytes ..) htap hgroup, tapBytes,
    List.getElem?_flatMap_range (fun _ _ ↦ length_stepBytes ..) hstep hcolumn, stepBytes,
    List.getElem?_flatMap_range (fun _ _ ↦ by simp) hj hlane, List.getElem?_map,
    List.getElem?_range hlane, Option.map_some]

theorem bodyPosition_lt (hkr : 0 < t.kr) (htap : tap < f.ks) (hstep : step < t.steps f.kc)
    (hj : j < t.nr) (hlane : lane < t.kr) :
    f.bodyPosition t tap step j lane < t.packedTileSize f.ks f.kc := by
  have hstep := block_add_lt (block_add_lt (block_add_lt htap hstep) hj) hlane
  rw [bodyPosition, TileShape.packedTileSize, ← TileShape.steps_mul hkr]
  calc t.nr * 4 + (((tap * t.steps f.kc + step) * t.nr + j) * t.kr + lane)
      < t.nr * 4 + f.ks * t.steps f.kc * t.nr * t.kr := Nat.add_lt_add_left hstep _
    _ = t.nr * (4 + f.ks * (t.steps f.kc * t.kr)) := by ring

theorem getElem?_tileBytes_body (htap : tap < f.ks) (hstep : step < t.steps f.kc) (hj : j < t.nr)
    (hlane : lane < t.kr) :
    (f.tileBytes t zp tile)[f.bodyPosition t tap step j lane]? =
      some ((f.placed t tile tap step j lane).getD zp.kernel) := by
  rw [tileBytes, bodyPosition, List.getElem?_append_right (by rw [length_biasBytes]; omega),
    length_biasBytes, Nat.add_sub_cancel_left, getElem?_packedBody htap hstep hj hlane]

theorem getElem?_tileBytes_bias (hj : j < t.nr) {b : ℕ} (hb : b < 4) :
    (f.tileBytes t zp tile)[4 * j + b]? =
      (int32Bytes (f.foldedBias zp (tile * t.nr + j)))[b]? := by
  rw [tileBytes, List.getElem?_append_left (by rw [length_biasBytes]; omega), Nat.mul_comm,
    biasBytes, List.getElem?_flatMap_range (fun _ _ ↦ length_int32Bytes _) hj hb]

/-! ## Groups of weights -/

theorem placed_eq (tile tap step j lane : ℕ) : f.placed t tile tap step j lane =
    if tile * t.nr + j < f.nc ∧ t.reductionIndex step j lane < f.kc then
      some (f.weight (tile * t.nr + j) tap (t.reductionIndex step j lane))
    else none := rfl

/-- The weight in a lane as a number, where padding is zero. -/
def laneWeight (f : Filter) (t : TileShape) (tile tap step j lane : ℕ) : ℕ :=
  (f.placed t tile tap step j lane).elim 0 UInt8.toNat

/-- The sum of the weights of one group. -/
def groupWeight (f : Filter) (t : TileShape) (tile tap step j : ℕ) : ℕ :=
  ∑ lane ∈ range t.kr, f.laneWeight t tile tap step j lane

/-- A group has room if neither its sum nor its share overflows. -/
def GroupFits (f : Filter) (t : TileShape) (zp : ZeroPoints) (tile tap step j : ℕ) : Prop :=
  f.groupWeight t tile tap step j ≤ 2147483647 ∧
    f.groupWeight t tile tap step j * zp.input.toNat ≤ 2147483647

/-- Every group has room. -/
def Fits (f : Filter) (t : TileShape) (zp : ZeroPoints) : Prop :=
  ∀ tile < t.columnTiles f.nc, ∀ j < t.nr, ∀ tap < f.ks, ∀ step < t.steps f.kc,
    f.GroupFits t zp tile tap step j

theorem laneWeight_le (tile tap step j lane : ℕ) : f.laneWeight t tile tap step j lane ≤ 255 := by
  rw [laneWeight]
  cases f.placed t tile tap step j lane with
  | none => exact Nat.zero_le 255
  | some w => exact Nat.le_of_lt_succ w.toNat_lt

theorem groupWeight_le (tile tap step j : ℕ) :
    f.groupWeight t tile tap step j ≤ t.kr * 255 := calc
  f.groupWeight t tile tap step j ≤ ∑ _lane ∈ range t.kr, 255 :=
    sum_le_sum fun lane _ ↦ laneWeight_le tile tap step j lane
  _ = t.kr * 255 := by rw [sum_const, card_range, smul_eq_mul]

/-- Groups that are short enough have room, whatever the weights are. -/
theorem fits_of_mul_le (h : t.kr * 255 * max 1 zp.input.toNat ≤ 2147483647) : f.Fits t zp := by
  intro tile _ j _ tap _ step _
  have hsum : f.groupWeight t tile tap step j ≤ t.kr * 255 := groupWeight_le tile tap step j
  constructor
  · calc f.groupWeight t tile tap step j ≤ t.kr * 255 * 1 := by rwa [Nat.mul_one]
      _ ≤ t.kr * 255 * max 1 zp.input.toNat := Nat.mul_le_mul_left _ (Nat.le_max_left ..)
      _ ≤ 2147483647 := h
  · exact (Nat.mul_le_mul hsum (Nat.le_max_right ..)).trans h

/-- Groups of up to `33025` weights are short enough for every zero point. -/
theorem fits_of_kr_lt (h : t.kr * 255 * 255 < 2147483648) : f.Fits t zp := by
  have hbyte := zp.input.toNat_lt
  refine fits_of_mul_le (le_trans (Nat.mul_le_mul_left _ ?_) (Nat.le_of_lt_succ h))
  exact Nat.max_le.mpr ⟨by norm_num, by omega⟩

theorem overflowsUnless_groupSum (tile tap step j : ℕ) :
    OverflowsUnless (f.groupWeight t tile tap step j ≤ 2147483647)
      (f.groupSum t tile tap step j) (Int32.ofInt (f.groupWeight t tile tap step j)) := by
  -- by induction on the lanes: a sum that has overflowed stays too large
  rw [groupSum, groupWeight]
  induction t.kr with
  | zero => exact (OverflowsUnless.pure 0).congr (by simp)
  | succ n ih =>
    rw [foldlM_range_succ, sum_range_succ]
    generalize ∑ lane ∈ range n, f.laneWeight t tile tap step j lane = sum at ih ⊢
    refine (ih.bind (?_ : sum ≤ 2147483647 → OverflowsUnless
      (sum + f.laneWeight t tile tap step j n ≤ 2147483647) _
      (Int32.ofInt ((sum + f.laneWeight t tile tap step j n : ℕ) : ℤ)))).congr (by omega)
    intro hfits
    rw [laneWeight]
    cases f.placed t tile tap step j n with
    | none => exact (OverflowsUnless.pure _).congr (iff_of_true trivial hfits)
    | some w =>
      dsimp only [Option.elim]
      rw [checkedAdd, toInt_ofInt_natCast hfits, toInt_byteToInt32, ← Nat.cast_add]
      exact .fit32_natCast _

theorem overflowsUnless_groupShare (f : Filter) (t : TileShape) (zp : ZeroPoints)
    (tile tap step j : ℕ) :
    OverflowsUnless (f.GroupFits t zp tile tap step j) (f.groupShare t zp tile tap step j)
      (Int32.ofInt (f.groupWeight t tile tap step j * zp.input.toNat)) := by
  refine (overflowsUnless_groupSum tile tap step j).bind fun hfits ↦ ?_
  rw [checkedMul, toInt_ofInt_natCast hfits, toInt_byteToInt32, ← Nat.cast_mul]
  exact .fit32_natCast _

/-! ## Bias words -/

/-- The groups of a column cover its weights once. A column that is no channel has none. -/
theorem sum_groupWeight (hkr : 0 < t.kr) (hsr : 0 < t.sr) (tile j : ℕ) :
    ∑ tap ∈ range f.ks, ∑ step ∈ range (t.steps f.kc), (f.groupWeight t tile tap step j : ℤ) =
      f.weightSum (tile * t.nr + j) := by
  let padded : ℕ → ℕ → ℤ := fun tap k ↦
    if tile * t.nr + j < f.nc ∧ k < f.kc then (f.weight (tile * t.nr + j) tap k).toNat else 0
  have hgroup : ∀ tap step, (f.groupWeight t tile tap step j : ℤ) =
      ∑ lane ∈ range t.kr, padded tap (t.reductionIndex step j lane) := by
    intro tap step
    rw [groupWeight, Nat.cast_sum]
    refine sum_congr rfl fun lane _ ↦ ?_
    rw [laneWeight, placed_eq]
    simp only [padded]
    split_ifs <;> rfl
  have htap : ∀ tap, ∑ step ∈ range (t.steps f.kc), (f.groupWeight t tile tap step j : ℤ) =
      ∑ k ∈ range f.kc, padded tap k := by
    intro tap
    rw [sum_congr rfl fun step _ ↦ hgroup tap step, TileShape.sum_reductionIndex t hkr,
      TileShape.sum_paddedDepth hkr hsr fun k hk ↦ if_neg fun h ↦ Nat.not_lt.mpr hk h.2]
  rw [sum_congr rfl fun tap _ ↦ htap tap, weightSum]
  split_ifs with hchannel
  · refine sum_congr rfl fun tap _ ↦ sum_congr rfl fun k hk ↦ ?_
    exact if_pos ⟨hchannel, mem_range.mp hk⟩
  · exact sum_eq_zero fun tap _ ↦ sum_eq_zero fun k _ ↦ if_neg fun h ↦ hchannel h.1

theorem biasOffset_eq : f.biasOffset zp =
    Int32.ofInt (f.ks * f.kc * zp.input.toNat * zp.kernel.toNat) := by
  rw [biasOffset, byteToInt32_eq, byteToInt32_eq, Int32.ofInt_mul, Int32.ofInt_mul,
    ← Nat.cast_mul]
  simp only [Int32.ofInt_eq_ofNat]

/-- The bias word of a column is the folded one, unless a group of the column has no room. -/
theorem overflowsUnless_biasWord (f : Filter) (zp : ZeroPoints) (hkr : 0 < t.kr)
    (hsr : 0 < t.sr) (tile j : ℕ) :
    OverflowsUnless (∀ tap < f.ks, ∀ step < t.steps f.kc, f.GroupFits t zp tile tap step j)
      (f.biasWord t zp tile j) (f.foldedBias zp (tile * t.nr + j)) := by
  have hshares := OverflowsUnless.sumEach fun tap (_ : tap < f.ks) ↦
    OverflowsUnless.sumEach fun step (_ : step < t.steps f.kc) ↦
      f.overflowsUnless_groupShare t zp tile tap step j
  have hvalue : (sumBelow f.ks fun tap ↦ sumBelow (t.steps f.kc) fun step ↦
      Int32.ofInt (f.groupWeight t tile tap step j * zp.input.toNat)) =
      Int32.ofInt (zp.input.toNat * f.weightSum (tile * t.nr + j)) := by
    rw [sumBelow_eq_ofInt fun tap _ ↦ sumBelow_ofInt _ _, ← sum_groupWeight hkr hsr, mul_sum]
    refine congrArg Int32.ofInt (sum_congr rfl fun tap _ ↦ ?_)
    rw [mul_sum]
    exact sum_congr rfl fun step _ ↦ mul_comm ..
  have hbase : f.biasOffset zp + f.biasAt (tile * t.nr + j) =
      Int32.ofInt ((f.biasAt (tile * t.nr + j)).toInt +
        f.ks * f.kc * zp.input.toNat * zp.kernel.toNat) := by
    rw [biasOffset_eq, Int32.ofInt_add, Int32.ofInt_toInt, Int32.add_comm]
  rw [hvalue] at hshares
  rw [biasWord, hbase, foldedBias, Int32.ofInt_sub]
  exact hshares.map _

theorem overflowsUnless_packedTiles (f : Filter) (zp : ZeroPoints) (hkr : 0 < t.kr)
    (hsr : 0 < t.sr) :
    OverflowsUnless (f.Fits t zp) (f.packedTiles t zp) (f.packedLayout t zp) := by
  have hbias : ∀ tile, OverflowsUnless
      (∀ j < t.nr, ∀ tap < f.ks, ∀ step < t.steps f.kc, f.GroupFits t zp tile tap step j)
      (f.packedBias t zp tile) (f.biasBytes t zp tile) := by
    intro tile
    have hwords := (OverflowsUnless.mapM_range fun j (_ : j < t.nr) ↦
      f.overflowsUnless_biasWord zp hkr hsr tile j).map (List.flatMap int32Bytes)
    rwa [List.flatMap_map] at hwords
  have htiles := (OverflowsUnless.mapM_range fun tile (_ : tile < t.columnTiles f.nc) ↦
    (hbias tile).map (· ++ f.packedBody t zp tile)).map List.flatten
  rwa [← List.flatMap_def] at htiles

/-! ## Packing -/

/-- What packing asks of its arguments, apart from room for its groups. -/
structure Packable (f : Filter) (t : TileShape) (target : Bytes) : Prop where
  nr_pos : 0 < t.nr
  kr_pos : 0 < t.kr
  sr_pos : 0 < t.sr
  weights : f.nc * f.ks * f.kc ≤ f.weights.size
  bias : ∀ b, f.bias = some b → f.nc ≤ b.size
  target : t.packedSize f.toFilterShape ≤ target.size
  reduction : f.ks * f.kc ≤ maxReduction

@[simp] theorem checkPack_eq_ok_iff {target : Bytes} :
    f.checkPack t target = .ok () ↔ f.Packable t target := by
  have hiff : f.checkPack t target = .ok () ↔
      ¬(t.nr = 0 ∨ t.kr = 0 ∨ t.sr = 0) ∧ f.nc * f.ks * f.kc ≤ f.weights.size ∧
      (∀ b, f.bias = some b → f.nc ≤ b.size) ∧ t.packedSize f.toFilterShape ≤ target.size ∧
      f.ks * f.kc ≤ maxReduction := by
    unfold checkPack
    dsimp only
    rw [refuse_if_eq_ok_iff, check_bind_eq_ok_iff, requireLength_eq_ok_iff]
    refine and_congr_right fun _ ↦ and_congr_right fun _ ↦ ?_
    -- the same checks follow, whether there is a bias or not
    rcases f.bias with _ | b
    · rw [check_bind_eq_ok_iff, requireLength_eq_ok_iff, refuse_last_eq_ok_iff, Nat.not_lt]
      simp
    · rw [check_bind_eq_ok_iff, requireLength_eq_ok_iff, check_bind_eq_ok_iff,
        requireLength_eq_ok_iff, refuse_last_eq_ok_iff, Nat.not_lt]
      simp
  rw [hiff]
  constructor
  · rintro ⟨hpos, hweights, hbias, htarget, hreduction⟩
    exact ⟨by omega, by omega, by omega, hweights, hbias, htarget, hreduction⟩
  · rintro ⟨hnr, hkr, hsr, hweights, hbias, htarget, hreduction⟩
    exact ⟨by omega, hweights, hbias, htarget, hreduction⟩

theorem pack_eq_ok_iff {target packed : Bytes} :
    f.pack t zp target = .ok packed ↔ f.Packable t target ∧ f.Fits t zp ∧
      packed = (f.packedLayout t zp).toArray ++
        target.extract (t.packedSize f.toFilterShape) target.size := by
  rw [pack, check_bind_eq_ok_iff, asRefusal_eq_ok_iff, checkPack_eq_ok_iff]
  refine and_congr_right fun h ↦ ?_
  have htiles := f.overflowsUnless_packedTiles zp h.kr_pos h.sr_pos
  simp only [bind_eq_ok_iff, asFault_eq_ok_iff, htiles.eq_ok_iff]
  constructor
  · rintro ⟨_, ⟨hfits, rfl⟩, ⟨⟩⟩
    exact ⟨hfits, rfl⟩
  · rintro ⟨hfits, rfl⟩
    exact ⟨_, ⟨hfits, rfl⟩, rfl⟩

theorem pack_eq_overflow {target : Bytes} (h : f.Packable t target) (hfits : ¬f.Fits t zp) :
    f.pack t zp target = .error (.fault .overflow) := by
  rw [pack, checkPack_eq_ok_iff.2 h,
    (f.overflowsUnless_packedTiles zp h.kr_pos h.sr_pos).overflow hfits]
  rfl

theorem pack_eq_refused {target : Bytes} {e : Error} (h : f.checkPack t target = .error e) :
    f.pack t zp target = .error (.refused e) := by
  rw [pack, h]
  rfl

theorem exists_pack {target : Bytes} (h : f.Packable t target) (hfits : f.Fits t zp) :
    ∃ packed, f.pack t zp target = .ok packed :=
  ⟨_, pack_eq_ok_iff.2 ⟨h, hfits, rfl⟩⟩

section Pack

variable {target packed : Bytes} (h : f.pack t zp target = .ok packed)

include h

theorem size_pack : packed.size = target.size := by
  obtain ⟨hpackable, -, rfl⟩ := pack_eq_ok_iff.1 h
  have htarget := hpackable.target
  rw [Array.size_append, List.size_toArray, length_packedLayout hpackable.kr_pos,
    Array.size_extract]
  omega

theorem packedSize_le_size_pack : t.packedSize f.toFilterShape ≤ packed.size := by
  rw [size_pack h]
  exact (pack_eq_ok_iff.1 h).1.target

theorem getElem?_pack_of_lt {i : ℕ} (hi : i < t.packedSize f.toFilterShape) :
    packed[i]? = (f.packedLayout t zp)[i]? := by
  obtain ⟨hpackable, -, rfl⟩ := pack_eq_ok_iff.1 h
  have hlength : (f.packedLayout t zp).length = t.packedSize f.toFilterShape :=
    length_packedLayout hpackable.kr_pos
  rw [Array.getElem?_append_left (by simpa [hlength] using hi), List.getElem?_toArray]

theorem getElem?_pack_of_le {i : ℕ} (hi : t.packedSize f.toFilterShape ≤ i) :
    packed[i]? = target[i]? := by
  obtain ⟨hpackable, -, rfl⟩ := pack_eq_ok_iff.1 h
  have hsize : (f.packedLayout t zp).toArray.size = t.packedSize f.toFilterShape :=
    length_packedLayout hpackable.kr_pos
  rw [Array.getElem?_append_right (hsize ▸ hi), hsize, Array.getElem?_extract,
    Nat.add_sub_cancel' hi]
  by_cases hlt : i < target.size
  · rw [if_pos (by omega)]
  · rw [if_neg (by omega), Array.getElem?_eq_none (by omega)]

private theorem getElem?_pack (htile : tile < t.columnTiles f.nc) {r : ℕ}
    (hr : r < t.packedTileSize f.ks f.kc) :
    packed[tile * t.packedTileSize f.ks f.kc + r]? =
      (f.tileBytes t zp tile)[r]? := by
  have hkr := (pack_eq_ok_iff.1 h).1.kr_pos
  rw [getElem?_pack_of_lt h (block_add_lt htile hr), packedLayout,
    List.getElem?_flatMap_range (fun tile _ ↦ length_tileBytes hkr tile) htile hr]

theorem getElem?_pack_body (htile : tile < t.columnTiles f.nc) (htap : tap < f.ks)
    (hstep : step < t.steps f.kc) (hj : j < t.nr) (hlane : lane < t.kr) :
    packed[tile * t.packedTileSize f.ks f.kc + f.bodyPosition t tap step j lane]? =
      some ((f.placed t tile tap step j lane).getD zp.kernel) := by
  have hkr := (pack_eq_ok_iff.1 h).1.kr_pos
  rw [getElem?_pack h htile (bodyPosition_lt hkr htap hstep hj hlane),
    getElem?_tileBytes_body htap hstep hj hlane]

theorem int32At_pack_bias (htile : tile < t.columnTiles f.nc) (hj : j < t.nr) :
    packed.int32At (tile * t.packedTileSize f.ks f.kc + 4 * j) =
      f.foldedBias zp (tile * t.nr + j) := by
  refine Bytes.int32At_eq_of_bytes fun b hb ↦ ?_
  have hlt : 4 * j + b < t.packedTileSize f.ks f.kc := by
    have hbias := TileShape.mul_four_le_packedTileSize t f.ks f.kc
    omega
  rw [Nat.add_assoc, getElem?_pack h htile hlt, getElem?_tileBytes_bias hj hb]

end Pack

end Filter

end QuantizedGemm
