import Mathlib.Algebra.BigOperators.Group.Finset.Sigma
import Mathlib.Algebra.Order.BigOperators.Group.Multiset
import Mathlib.Data.Set.Prod
import QuantizedGemm.Proofs.Packing

/-!
# Packing loses nothing

A packed filter is a sequence of words and of slots, one slot for each tile, tap, step, column and
lane. This file shows that the layout leaves no gap and stores nothing twice.

* `TileShape.reductionIndex_bijOn`: in every column the slots of a tap go through the padded
  reduction once. The sum lemma behind the bias words holds in every commutative monoid, so it holds
  for multisets, where it says just this.
* `Slot.position_bijOn`: the slots lie at different places, and fill what the words leave.
* `Filter.pack_lossless`: packing succeeds, writes the layout and nothing else, and two filters of
  one shape are packed to the same bytes only if they have the same weights and biases.

Which bytes a slot holds is known from `Filter.getElem?_pack_body`; a weight is read back from the
slot that the two bijections assign to it, and then a bias from its word and the weights.
-/

namespace QuantizedGemm

open Finset

/-! ## The order of a column -/

namespace TileShape

variable {t : TileShape}

/-- As a multiset, the positions that a column visits are the positions of the padded reduction. -/
theorem map_reductionIndex (hkr : 0 < t.kr) (kc j : ℕ) :
    (range (t.steps kc) ×ˢ range t.kr).val.map (fun p ↦ t.reductionIndex p.1 j p.2) =
      (range (t.paddedDepth kc)).val := by
  have hsum := t.sum_reductionIndex hkr kc j fun k ↦ ({k} : Multiset ℕ)
  rw [← sum_product' (range (t.steps kc)) (range t.kr) fun step lane ↦
    ({t.reductionIndex step j lane} : Multiset ℕ), sum_multiset_singleton] at hsum
  rw [← hsum]
  exact (Multiset.bind_singleton ..).symm

theorem reductionIndex_bijOn (hkr : 0 < t.kr) (kc j : ℕ) :
    Set.BijOn (fun p : ℕ × ℕ ↦ t.reductionIndex p.1 j p.2) (Set.Iio (t.steps kc) ×ˢ Set.Iio t.kr)
      (Set.Iio (t.paddedDepth kc)) := by
  have hmap := map_reductionIndex hkr kc j
  have hmem : ∀ p : ℕ × ℕ, p ∈ (range (t.steps kc) ×ˢ range t.kr).val ↔
      p ∈ Set.Iio (t.steps kc) ×ˢ Set.Iio t.kr := by simp
  have hnodup := hmap ▸ (range (t.paddedDepth kc)).nodup
  refine ⟨?_, ?_, ?_⟩
  · intro p hp
    have himage := Multiset.mem_map_of_mem (fun p ↦ t.reductionIndex p.1 j p.2) ((hmem p).mpr hp)
    rw [hmap] at himage
    exact mem_range.mp himage
  · intro p hp q hq heq
    exact Multiset.inj_on_of_nodup_map hnodup p ((hmem p).mpr hp) q ((hmem q).mpr hq) heq
  · intro k hk
    have himage : k ∈ (range (t.paddedDepth kc)).val := mem_range.mpr hk
    rw [← hmap] at himage
    obtain ⟨p, hp, heq⟩ := Multiset.mem_map.mp himage
    exact ⟨p, (hmem p).mp hp, heq⟩

end TileShape

/-! ## Slots -/

/-- A place for a weight, behind the words of a packed tile. -/
structure Slot where
  tile : ℕ
  tap : ℕ
  step : ℕ
  column : ℕ
  lane : ℕ

namespace Slot

structure Valid (s : Slot) (f : FilterShape) (t : TileShape) : Prop where
  tile : s.tile < t.columnTiles f.nc
  tap : s.tap < f.ks
  step : s.step < t.steps f.kc
  column : s.column < t.nr
  lane : s.lane < t.kr

def channel (s : Slot) (t : TileShape) : ℕ := s.tile * t.nr + s.column

def index (s : Slot) (t : TileShape) : ℕ := t.reductionIndex s.step s.column s.lane

/-- Where a slot lies in a packed filter. -/
def position (s : Slot) (f : FilterShape) (t : TileShape) : ℕ :=
  s.tile * t.packedTileSize f.ks f.kc +
    (4 * t.nr + (s.tap * t.paddedDepth f.kc * t.nr + (s.step * t.nr + s.column) * t.kr + s.lane))

/-- The slots of a tile are counted by tap, step, column and lane. -/
private def offset (s : Slot) (f : FilterShape) (t : TileShape) : ℕ :=
  ((s.tap * t.steps f.kc + s.step) * t.nr + s.column) * t.kr + s.lane

variable {f : FilterShape} {t : TileShape} {s s' : Slot}

private theorem position_eq (hkr : 0 < t.kr) :
    s.position f t = s.tile * t.packedTileSize f.ks f.kc + (4 * t.nr + s.offset f t) := by
  rw [position, offset, ← TileShape.steps_mul hkr]
  ring

private theorem packedTileSize_eq (hkr : 0 < t.kr) :
    t.packedTileSize f.ks f.kc = 4 * t.nr + f.ks * t.steps f.kc * t.nr * t.kr := by
  rw [TileShape.packedTileSize, ← TileShape.steps_mul hkr]
  ring

private theorem Valid.offset_lt (h : s.Valid f t) :
    s.offset f t < f.ks * t.steps f.kc * t.nr * t.kr :=
  block_add_lt (block_add_lt (block_add_lt h.tap h.step) h.column) h.lane

private theorem Valid.words_add_offset_lt (hkr : 0 < t.kr) (h : s.Valid f t) :
    4 * t.nr + s.offset f t < t.packedTileSize f.ks f.kc := by
  rw [packedTileSize_eq hkr]
  exact Nat.add_lt_add_left h.offset_lt _

/-- The slots lie apart, and fill all that is not part of a word. -/
theorem position_bijOn (hkr : 0 < t.kr) :
    Set.BijOn (fun s : Slot ↦ s.position f t) {s | s.Valid f t}
      {i | i < t.packedSize f ∧ 4 * t.nr ≤ i % t.packedTileSize f.ks f.kc} := by
  refine ⟨?_, ?_, ?_⟩
  · intro s (hs : s.Valid f t)
    have hlt := hs.words_add_offset_lt hkr
    simp only [Set.mem_ofPred_eq, position_eq hkr]
    refine ⟨block_add_lt hs.tile hlt, ?_⟩
    rw [block_add_mod hlt]
    exact Nat.le_add_right ..
  · intro s (hs : s.Valid f t) s' (hs' : s'.Valid f t) heq
    simp only [position_eq hkr] at heq
    obtain ⟨htile, hwords⟩ := div_mul_add_mod_inj (hs.words_add_offset_lt hkr)
      (hs'.words_add_offset_lt hkr) heq
    have hoffset : s.offset f t = s'.offset f t := Nat.add_left_cancel hwords
    obtain ⟨hgroup, hlane⟩ := div_mul_add_mod_inj hs.lane hs'.lane hoffset
    obtain ⟨hround, hcolumn⟩ := div_mul_add_mod_inj hs.column hs'.column hgroup
    obtain ⟨htap, hstep⟩ := div_mul_add_mod_inj hs.step hs'.step hround
    cases s
    cases s'
    simp_all only
  · rintro i ⟨hi, hwords⟩
    obtain ⟨tile, htile, r, hr, rfl⟩ := exists_block_add hi
    rw [block_add_mod hr] at hwords
    obtain ⟨r, rfl⟩ := Nat.exists_eq_add_of_le hwords
    rw [packedTileSize_eq hkr] at hr
    obtain ⟨group, hgroup, lane, hlane, rfl⟩ := exists_block_add (Nat.lt_of_add_lt_add_left hr)
    obtain ⟨round, hround, column, hcolumn, rfl⟩ := exists_block_add hgroup
    obtain ⟨tap, htap, step, hstep, rfl⟩ := exists_block_add hround
    exact ⟨⟨tile, tap, step, column, lane⟩, ⟨htile, htap, hstep, hcolumn, hlane⟩, position_eq hkr⟩

/-- Each weight of each channel has one slot. -/
theorem existsUnique_slot (hnr : 0 < t.nr) (hkr : 0 < t.kr) (hsr : 0 < t.sr) {channel tap k : ℕ}
    (hchannel : channel < f.nc) (htap : tap < f.ks) (hk : k < f.kc) :
    ∃! s : Slot, s.Valid f t ∧ s.channel t = channel ∧ s.tap = tap ∧ s.index t = k := by
  have hcolumn : channel % t.nr < t.nr := Nat.mod_lt _ hnr
  obtain ⟨-, hinj, hsurj⟩ := TileShape.reductionIndex_bijOn hkr f.kc (channel % t.nr)
  obtain ⟨⟨step, lane⟩, ⟨hstep, hlane⟩, hindex⟩ :=
    hsurj (hk.trans_le (TileShape.le_paddedDepth hkr hsr f.kc))
  refine ⟨⟨channel / t.nr, tap, step, channel % t.nr, lane⟩,
    ⟨⟨div_lt_divideUp hnr hchannel, htap, hstep, hcolumn, hlane⟩, Nat.div_add_mod' .., rfl, hindex⟩,
    ?_⟩
  rintro ⟨tile, tap', step', column, lane'⟩ ⟨hs, hchannel', htap', hindex'⟩
  -- the channel decides the tile and the column, and the index then the step and the lane
  obtain ⟨rfl, rfl⟩ := div_mul_add_mod_inj hs.column hcolumn
    (hchannel'.trans (Nat.div_add_mod' channel t.nr).symm)
  have hgroup : (step', lane') = (step, lane) :=
    hinj (Set.mk_mem_prod hs.step hs.lane) ⟨hstep, hlane⟩ (hindex'.trans hindex.symm)
  rw [Prod.mk.injEq] at hgroup
  obtain ⟨rfl, rfl⟩ := hgroup
  cases htap'
  rfl

end Slot

/-! ## The layout -/

namespace Filter

variable {f g : Filter} {t : TileShape} {zp : ZeroPoints}

/-- A buffer that starts with a filter in packed form. -/
structure Layout (f : Filter) (t : TileShape) (zp : ZeroPoints) (packed : Bytes) : Prop where
  /-- The bias word of each column, channel or not. -/
  word : ∀ tile < t.columnTiles f.nc, ∀ j < t.nr,
    packed.int32At (tile * t.packedTileSize f.ks f.kc + 4 * j) = Int32.ofInt
      ((f.biasAt (tile * t.nr + j)).toInt + f.ks * f.kc * zp.input.toNat * zp.kernel.toNat -
        zp.input.toNat * f.weightSum (tile * t.nr + j))
  /-- A weight in each slot of one, and the zero point in the others. -/
  slot : ∀ s : Slot, s.Valid f.toFilterShape t → packed[s.position f.toFilterShape t]? =
    if s.channel t < f.nc ∧ s.index t < f.kc then
      f.weights[(s.channel t * f.ks + s.tap) * f.kc + s.index t]?
    else some zp.kernel

theorem placed_slot (f : Filter) (t : TileShape) (s : Slot) :
    f.placed t s.tile s.tap s.step s.column s.lane =
      if s.channel t < f.nc ∧ s.index t < f.kc then some (f.weight (s.channel t) s.tap (s.index t))
      else none := rfl

theorem weight_index_lt {channel tap k : ℕ} (hchannel : channel < f.nc) (htap : tap < f.ks)
    (hk : k < f.kc) : (channel * f.ks + tap) * f.kc + k < f.nc * f.ks * f.kc :=
  block_add_lt (block_add_lt hchannel htap) hk

theorem layout_of_pack {target packed : Bytes} (h : f.pack t zp target = .ok packed) :
    f.Layout t zp packed := by
  have hp := (pack_eq_ok_iff.mp h).1
  refine ⟨?_, ?_⟩
  · exact fun tile htile j hj ↦ int32At_pack_bias h htile hj
  · intro s hs
    have hposition : s.position f.toFilterShape t = s.tile * t.packedTileSize f.ks f.kc +
        f.bodyPosition t s.tap s.step s.column s.lane := by
      rw [Slot.position, bodyPosition, ← TileShape.steps_mul hp.kr_pos]
      ring
    rw [hposition, getElem?_pack_body h hs.tile hs.tap hs.step hs.column hs.lane, placed_slot]
    by_cases hreal : s.channel t < f.nc ∧ s.index t < f.kc
    · have hlt := (weight_index_lt hreal.1 hs.tap hreal.2).trans_le hp.weights
      rw [if_pos hreal, if_pos hreal, Option.getD_some, weight, Bytes.at0_eq,
        Array.getElem?_eq_getElem hlt, Option.getD_some]
    · rw [if_neg hreal, if_neg hreal, Option.getD_none]

/-! ## Reading back -/

theorem biasAt_of_le {channel : ℕ} (h : f.nc ≤ channel) : f.biasAt channel = 0 := by
  unfold biasAt
  split
  · rfl
  · exact if_neg (Nat.not_lt.mpr h)

section Congr

variable (hshape : g.toFilterShape = f.toFilterShape)
  (hweights : ∀ i < f.nc * f.ks * f.kc, g.weights[i]? = f.weights[i]?)

include hshape hweights

private theorem weight_congr {channel tap k : ℕ} (hchannel : channel < f.nc) (htap : tap < f.ks)
    (hk : k < f.kc) : g.weight channel tap k = f.weight channel tap k := by
  rw [weight, weight, hshape, Bytes.at0_eq, Bytes.at0_eq,
    hweights _ (weight_index_lt hchannel htap hk)]

private theorem weightSum_congr (channel : ℕ) : g.weightSum channel = f.weightSum channel := by
  rw [weightSum, weightSum, hshape]
  split_ifs with hchannel
  · refine sum_congr rfl fun tap htap ↦ sum_congr rfl fun k hk ↦ ?_
    rw [weight_congr hshape hweights hchannel (mem_range.mp htap) (mem_range.mp hk)]
  · rfl

private theorem placed_congr {tap : ℕ} (htap : tap < f.ks) (tile step j lane : ℕ) :
    g.placed t tile tap step j lane = f.placed t tile tap step j lane := by
  rw [placed_eq, placed_eq, hshape]
  split_ifs with hreal
  · rw [weight_congr hshape hweights hreal.1 htap hreal.2]
  · rfl

private theorem packedBody_congr (tile : ℕ) :
    g.packedBody t zp tile = f.packedBody t zp tile := by
  rw [packedBody, packedBody, hshape]
  refine List.flatMap_congr fun tap htap ↦ List.flatMap_congr fun step _ ↦
    List.flatMap_congr fun j _ ↦ List.map_congr_left fun lane _ ↦ ?_
  rw [placed_congr hshape hweights (List.mem_range.mp htap)]

variable (hbias : ∀ channel < f.nc, g.biasAt channel = f.biasAt channel)

include hbias

private theorem foldedBias_congr (channel : ℕ) :
    g.foldedBias zp channel = f.foldedBias zp channel := by
  have hword : g.biasAt channel = f.biasAt channel := by
    by_cases hchannel : channel < f.nc
    · exact hbias _ hchannel
    · rw [biasAt_of_le (Nat.not_lt.mp hchannel),
        biasAt_of_le (by rw [hshape]; exact Nat.not_lt.mp hchannel)]
  rw [foldedBias, foldedBias, hword, weightSum_congr hshape hweights, hshape]

theorem packedLayout_congr : g.packedLayout t zp = f.packedLayout t zp := by
  rw [packedLayout, packedLayout, hshape]
  refine List.flatMap_congr fun tile _ ↦ ?_
  rw [tileBytes, tileBytes, packedBody_congr hshape hweights, biasBytes, biasBytes]
  exact congrArg (· ++ _)
    (List.flatMap_congr fun j _ ↦ by rw [foldedBias_congr hshape hweights hbias])

end Congr

section ReadBack

variable {target target' packed packed' : Bytes} (hshape : g.toFilterShape = f.toFilterShape)
  (hf : f.pack t zp target = .ok packed) (hg : g.pack t zp target' = .ok packed')
  (hbytes : ∀ i < t.packedSize f.toFilterShape, packed'[i]? = packed[i]?)

include hshape hf hg hbytes

private theorem weights_eq_of_pack : ∀ i < f.nc * f.ks * f.kc, g.weights[i]? = f.weights[i]? := by
  intro i hi
  have hp := (pack_eq_ok_iff.mp hf).1
  obtain ⟨row, hrow, k, hk, rfl⟩ := exists_block_add hi
  obtain ⟨channel, hchannel, tap, htap, rfl⟩ := exists_block_add hrow
  obtain ⟨s, ⟨hs, rfl, rfl, rfl⟩, -⟩ :=
    Slot.existsUnique_slot hp.nr_pos hp.kr_pos hp.sr_pos hchannel htap hk
  have hfslot := (layout_of_pack hf).slot s hs
  have hgslot := (layout_of_pack hg).slot s (hshape ▸ hs)
  rw [if_pos ⟨hchannel, hk⟩] at hfslot
  rw [hshape, if_pos ⟨hchannel, hk⟩] at hgslot
  rw [← hfslot, ← hgslot, hbytes _ ((Slot.position_bijOn hp.kr_pos).mapsTo hs).1]

/-- A bias is read back from its word, which holds nothing else that is not known by then. -/
private theorem biasAt_eq_of_pack : ∀ channel < f.nc, g.biasAt channel = f.biasAt channel := by
  intro channel hchannel
  have hp := (pack_eq_ok_iff.mp hf).1
  have hweights := weights_eq_of_pack hshape hf hg hbytes
  have htile := div_lt_divideUp hp.nr_pos hchannel
  have hcolumn := Nat.mod_lt channel hp.nr_pos
  have hfword := (layout_of_pack hf).word _ htile _ hcolumn
  have hgword := (layout_of_pack hg).word (channel / t.nr) (hshape ▸ htile) _ hcolumn
  have hwords := TileShape.mul_four_le_packedTileSize t f.ks f.kc
  have hread : packed'.int32At (channel / t.nr * t.packedTileSize f.ks f.kc +
      4 * (channel % t.nr)) = packed.int32At (channel / t.nr * t.packedTileSize f.ks f.kc +
      4 * (channel % t.nr)) := by
    refine Bytes.int32At_congr fun b hb ↦ ?_
    rw [Bytes.at0_eq, Bytes.at0_eq, Nat.add_assoc, hbytes _ (block_add_lt htile (by omega))]
  rw [hshape, weightSum_congr hshape hweights] at hgword
  rw [hfword, hgword, Nat.div_add_mod'] at hread
  simpa only [Int32.ofInt_sub, Int32.ofInt_add, Int32.ofInt_toInt, Int32.sub_left_inj,
    Int32.add_left_inj] using hread

end ReadBack

/-- Packed filters of one shape are the same if and only if the filters are. -/
theorem pack_eq_iff {target target' packed packed' : Bytes}
    (hshape : g.toFilterShape = f.toFilterShape) (hf : f.pack t zp target = .ok packed)
    (hg : g.pack t zp target' = .ok packed') :
    (∀ i < t.packedSize f.toFilterShape, packed'[i]? = packed[i]?) ↔
      (∀ i < f.nc * f.ks * f.kc, g.weights[i]? = f.weights[i]?) ∧
        ∀ channel < f.nc, g.biasAt channel = f.biasAt channel := by
  constructor
  · intro hbytes
    exact ⟨weights_eq_of_pack hshape hf hg hbytes, biasAt_eq_of_pack hshape hf hg hbytes⟩
  · rintro ⟨hweights, hbias⟩ i hi
    rw [getElem?_pack_of_lt hf hi, getElem?_pack_of_lt hg (hshape ▸ hi),
      packedLayout_congr hshape hweights hbias]

/-- Packing succeeds on buffers that are long enough, in groups that are short enough. It writes the
layout over the front of the target, whatever was there, and leaves the rest. Each weight is in one
slot, and the bytes decide the weights and biases. -/
theorem pack_lossless {target : Bytes} (h : f.Packable t target)
    (hkr : t.kr * 255 * 255 < 2147483648) (zp : ZeroPoints) :
    ∃ packed, f.pack t zp target = .ok packed ∧ packed.size = target.size ∧
      (∀ i, t.packedSize f.toFilterShape ≤ i → packed[i]? = target[i]?) ∧
      (∀ target' packed' : Bytes, f.pack t zp target' = .ok packed' →
        ∀ i < t.packedSize f.toFilterShape, packed'[i]? = packed[i]?) ∧
      f.Layout t zp packed ∧
      (∀ j, Set.BijOn (fun p : ℕ × ℕ ↦ t.reductionIndex p.1 j p.2)
        (Set.Iio (t.steps f.kc) ×ˢ Set.Iio t.kr) (Set.Iio (t.paddedDepth f.kc))) ∧
      (∀ channel < f.nc, ∀ tap < f.ks, ∀ k < f.kc, ∃! s : Slot,
        s.Valid f.toFilterShape t ∧ s.channel t = channel ∧ s.tap = tap ∧ s.index t = k) ∧
      Set.BijOn (fun s : Slot ↦ s.position f.toFilterShape t) {s | s.Valid f.toFilterShape t}
        {i | i < t.packedSize f.toFilterShape ∧ 4 * t.nr ≤ i % t.packedTileSize f.ks f.kc} ∧
      ∀ (g : Filter) (target' packed' : Bytes), g.toFilterShape = f.toFilterShape →
        g.pack t zp target' = .ok packed' →
        ((∀ i < t.packedSize f.toFilterShape, packed'[i]? = packed[i]?) ↔
          (∀ i < f.nc * f.ks * f.kc, g.weights[i]? = f.weights[i]?) ∧
            ∀ channel < f.nc, g.biasAt channel = f.biasAt channel) := by
  obtain ⟨packed, hpack⟩ := exists_pack h (fits_of_kr_lt hkr)
  refine ⟨packed, hpack, size_pack hpack, fun i hi ↦ getElem?_pack_of_le hpack hi, ?_,
    layout_of_pack hpack, TileShape.reductionIndex_bijOn h.kr_pos f.kc, ?_,
    Slot.position_bijOn h.kr_pos, fun g target' packed' hshape hg ↦ pack_eq_iff hshape hpack hg⟩
  · intro target' packed' hpack' i hi
    rw [getElem?_pack_of_lt hpack' hi, getElem?_pack_of_lt hpack hi]
  · intro channel hchannel tap htap k hk
    exact Slot.existsUnique_slot h.nr_pos h.kr_pos h.sr_pos hchannel htap hk

/-- Three channels of two taps, for tiles that rotate their groups. -/
def rotatedFilter : Filter :=
  ⟨⟨3, 2, 3⟩, #[1, 2, 3, 4, 5, 6, 7, 8, 9, 10, 11, 12, 13, 14, 15, 16, 17, 18], none⟩

theorem rotatedFilter_lossless :
    rotatedFilter.Packable ⟨2, 2, 2, 2⟩ (Array.replicate 50 7) ∧
      ∃ packed, rotatedFilter.pack ⟨2, 2, 2, 2⟩ ⟨5, 3⟩ (Array.replicate 50 7) = .ok packed ∧
        packed.size = 50 ∧ packed[48]? = some 7 ∧
        rotatedFilter.Layout ⟨2, 2, 2, 2⟩ ⟨5, 3⟩ packed := by
  have hpackable : rotatedFilter.Packable ⟨2, 2, 2, 2⟩ (Array.replicate 50 7) :=
    ⟨by decide, by decide, by decide, by decide, by rintro b ⟨⟩, by decide, by decide⟩
  obtain ⟨packed, hpack, hsize, htail, -, hlayout, -⟩ := pack_lossless hpackable (by decide) ⟨5, 3⟩
  exact ⟨hpackable, packed, hpack, hsize.trans (by decide), (htail 48 (by decide)).trans rfl,
    hlayout⟩

end Filter

end QuantizedGemm
