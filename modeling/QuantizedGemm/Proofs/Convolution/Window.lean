import QuantizedGemm.Convolution
import QuantizedGemm.Proofs.Checked
import QuantizedGemm.Proofs.Kernel.Run

/-!
# The windows of a convolution

A table of references is built for tiles of `mr` output pixels.

## The layout

A table is filled pixel by pixel, each reference at a place that is worked out for it. Read in
order, these places go tile by tile, tap by tap and row by row (`ConvGeometry.table`). No write
leaves the table and no place is left out, so that both are the same table
(`ConvGeometry.writeTable_eq_ok`).

## Main statements

* `ConvGeometry.indirection_eq_ok_iff`: which geometries have a table, and what it is.
* `ConvGeometry.getElem?_tile`: tap `tap` of the pixel in row `i` of a tile is entry
  `tap * mr + i` of the tile.
* `ConvGeometry.windowRow_eq`: the reference of a tap in coordinates of the image. The coordinates
  are integers here: taps above and left of the image have negative ones, and nothing has to be said
  about differences that do not exist.
* `ConvGeometry.validate_tile`: references stay in an input that holds the image.
-/

namespace QuantizedGemm

namespace ConvGeometry

variable {g : ConvGeometry}

/-! ## Valid geometries -/

structure Valid (g : ConvGeometry) : Prop where
  sizes : ∀ p ∈ g.positiveSizes, 0 < p.2
  outputSize_pos : 0 < g.outputSize

@[simp] theorem validate_eq_ok_iff : g.validate = .ok () ↔ g.Valid := by
  have hfind : (g.positiveSizes.find? fun p ↦ p.2 == 0) = none ↔
      ∀ p ∈ g.positiveSizes, 0 < p.2 := by
    rw [List.find?_eq_none]
    simp only [beq_iff_eq, Nat.pos_iff_ne_zero, ne_eq]
  unfold validate
  split
  next p hp =>
    refine ⟨nofun, fun h ↦ ?_⟩
    rw [hfind.mpr h.sizes] at hp
    cases hp
  next hnone =>
    split
    next hzero => exact ⟨nofun, fun h ↦ absurd hzero h.outputSize_pos.ne'⟩
    next hzero => exact ⟨fun _ ↦ ⟨hfind.mp hnone, Nat.pos_of_ne_zero hzero⟩, fun _ ↦ rfl⟩

namespace Valid

variable (h : g.Valid)

include h

theorem kernelSize_pos : 0 < g.kernelSize :=
  Nat.mul_pos (h.sizes ("kernel height", _) (by simp [positiveSizes]))
    (h.sizes ("kernel width", _) (by simp [positiveSizes]))

end Valid

/-! ## Tables -/

/-- The references of one tile, tap by tap. -/
def tileRows (g : ConvGeometry) (mr n : ℕ) : List IndirectRow :=
  (List.range g.kernelSize).flatMap fun tap ↦ (List.range mr).map fun r ↦ g.placedRow mr n tap r

/-- The table of a geometry, one tile after the other. -/
def table (g : ConvGeometry) (mr : ℕ) : ConvIndirection :=
  ⟨((List.range (divideUp g.outputSize mr)).flatMap (g.tileRows mr)).toArray, mr, g.kernelSize,
    g.outputSize⟩

@[simp] theorem length_tileRows (mr n : ℕ) : (g.tileRows mr n).length = g.kernelSize * mr :=
  List.length_flatMap_range fun _ _ ↦ by simp

@[simp] theorem size_table (g : ConvGeometry) (mr : ℕ) :
    (g.table mr).rows.size = divideUp g.outputSize mr * (g.kernelSize * mr) :=
  List.length_flatMap_range fun n _ ↦ length_tileRows mr n

/-- The entry of row `i` of tile `n` at tap `tap`; rows past the last pixel repeat it. -/
theorem getElem?_table {mr n tap i : ℕ} (hn : n < divideUp g.outputSize mr)
    (htap : tap < g.kernelSize) (hi : i < mr) :
    (g.table mr).rows[n * (g.kernelSize * mr) + (tap * mr + i)]? =
      some (g.windowRow (min (n * mr + i) (g.outputSize - 1)) tap) := by
  rw [table, List.getElem?_toArray,
    List.getElem?_flatMap_range (fun n _ ↦ length_tileRows mr n) hn (block_add_lt htap hi),
    tileRows, List.getElem?_flatMap_range (fun _ _ ↦ by simp) htap hi, List.getElem?_map,
    List.getElem?_range hi, Option.map_some]
  rfl

theorem place_eq (mr n tap r : ℕ) :
    g.place mr n tap r = n * (g.kernelSize * mr) + (tap * mr + r) := by
  rw [place]
  ring

theorem fills_writePixel {mr n r : ℕ} (hn : n < divideUp g.outputSize mr) (hr : r < mr) :
    Fills (g.table mr).rows
      (fun q ↦ ∃ ky < g.kernel.height, ∃ kx < g.kernel.width,
        q = g.place mr n (ky * g.kernel.width + kx) r)
      (g.writePixel mr n r) :=
  .foldlM_range fun _ hky ↦ .foldlM_range fun _ hkx ↦ .writeAt <| by
    rw [place_eq]
    exact getElem?_table hn (block_add_lt hky hkx) hr

/-- Written pixel by pixel, every reference comes to its place in the table. -/
theorem writeTable_eq_ok (g : ConvGeometry) (mr : ℕ) :
    g.writeTable mr = .ok (g.table mr).rows := by
  have hfills : Fills (g.table mr).rows _ fun rows ↦
      (List.range (divideUp g.outputSize mr)).foldlM
        (fun rows n ↦ (List.range mr).foldlM (fun rows r ↦ g.writePixel mr n r rows) rows) rows :=
    .foldlM_range fun _ hn ↦ .foldlM_range fun _ hr ↦ fills_writePixel hn hr
  refine hfills.eq_ok (fun q hq ↦ ?_) ?_
  · rw [size_table] at hq
    obtain ⟨n, hn, i, hi, rfl⟩ := exists_block_add hq
    obtain ⟨tap, htap, r, hr, rfl⟩ := exists_block_add hi
    obtain ⟨ky, hky, kx, hkx, rfl⟩ := exists_block_add htap
    exact ⟨n, hn, r, hr, ky, hky, kx, hkx, (place_eq ..).symm⟩
  · rw [Array.size_replicate, size_table]
    ring

@[simp] theorem checkTable_eq_ok_iff {mr : ℕ} : g.checkTable mr = .ok () ↔ 0 < mr ∧ g.Valid := by
  unfold checkTable
  rw [refuse_if_eq_ok_iff, validate_eq_ok_iff, Nat.pos_iff_ne_zero]

theorem indirection_eq_ok_iff {mr : ℕ} {rows : ConvIndirection} :
    g.indirection mr = .ok rows ↔ 0 < mr ∧ g.Valid ∧ rows = g.table mr := by
  unfold indirection
  rw [check_bind_eq_ok_iff, asRefusal_eq_ok_iff, checkTable_eq_ok_iff, and_assoc,
    writeTable_eq_ok]
  refine and_congr_right fun _ ↦ and_congr_right fun _ ↦ ?_
  exact ⟨fun h ↦ by cases h; rfl, by rintro rfl; rfl⟩

theorem getElem?_tile {mr n tap i : ℕ} (hn : n < divideUp g.outputSize mr)
    (htap : tap < g.kernelSize) (hi : i < mr) :
    ((g.table mr).tile n)[tap * mr + i]? =
      some (g.windowRow (min (n * mr + i) (g.outputSize - 1)) tap) := by
  have hentry := block_add_lt htap hi
  have hend : (n + 1) * (g.kernelSize * mr) ≤ divideUp g.outputSize mr * (g.kernelSize * mr) :=
    Nat.mul_le_mul_right _ hn
  have hentries : (g.table mr).tile n = (g.table mr).rows.extract (n * (g.kernelSize * mr))
      ((n + 1) * (g.kernelSize * mr)) := by
    rw [ConvIndirection.tile, Nat.mul_comm g.kernelSize]
    rfl
  rw [hentries, Array.getElem?_extract, size_table, Nat.min_eq_left hend, Nat.succ_mul,
    Nat.add_sub_cancel_left, if_pos hentry]
  exact getElem?_table hn htap hi

/-! ## References in coordinates of the image -/

/-- The row of the image that output row `oy` reads at kernel row `ky`. -/
def imageRow (g : ConvGeometry) (oy ky : ℕ) : ℤ :=
  oy * g.subsampling.height + ky * g.dilation.height - g.paddingTop

/-- The column of the image that output column `ox` reads at kernel column `kx`. -/
def imageColumn (g : ConvGeometry) (ox kx : ℕ) : ℤ :=
  ox * g.subsampling.width + kx * g.dilation.width - g.paddingLeft

/-- The pixel of the image that an output reads at a tap, unless it lies in the padding. -/
def Inside (g : ConvGeometry) (oy ox ky kx : ℕ) : Prop :=
  (0 ≤ g.imageRow oy ky ∧ g.imageRow oy ky < g.input.height) ∧
    0 ≤ g.imageColumn ox kx ∧ g.imageColumn ox kx < g.input.width

instance (oy ox ky kx : ℕ) : Decidable (g.Inside oy ox ky kx) :=
  inferInstanceAs (Decidable (_ ∧ _))

theorem insidePosition?_eq (position padding size : ℕ) :
    insidePosition? position padding size =
      if 0 ≤ (position - padding : ℤ) ∧ (position - padding : ℤ) < size then
        some (position - padding : ℤ).toNat
      else none := by
  rw [insidePosition?]
  by_cases h : padding ≤ position ∧ position - padding < size
  · rw [if_pos h, if_pos (by omega)]
    congr 1
    omega
  · rw [if_neg h, if_neg (by omega)]

theorem windowRow_eq {oy ox ky kx : ℕ} (hox : ox < g.output.width) (hkx : kx < g.kernel.width) :
    g.windowRow (oy * g.output.width + ox) (ky * g.kernel.width + kx) =
      if g.Inside oy ox ky kx then
        .input (((g.imageRow oy ky).toNat * g.input.width + (g.imageColumn ox kx).toNat) *
          g.pixelStride)
      else .zero := by
  have hrow : ((oy * g.subsampling.height + ky * g.dilation.height : ℕ) : ℤ) - g.paddingTop =
      g.imageRow oy ky := by
    push_cast
    rfl
  have hcolumn : ((ox * g.subsampling.width + kx * g.dilation.width : ℕ) : ℤ) - g.paddingLeft =
      g.imageColumn ox kx := by
    push_cast
    rfl
  rw [windowRow]
  simp only [block_add_div hox, block_add_mod hox, block_add_div hkx, block_add_mod hkx,
    insidePosition?_eq, hrow, hcolumn]
  by_cases hinside : g.Inside oy ox ky kx
  · rw [if_pos hinside.1, if_pos hinside.2, if_pos hinside]
  · rw [if_neg hinside]
    by_cases hin : 0 ≤ g.imageRow oy ky ∧ g.imageRow oy ky < g.input.height
    · rw [if_pos hin, if_neg fun hcolumn ↦ hinside ⟨hin, hcolumn⟩]
    · rw [if_neg hin]

/-! ## References that stay in their buffers -/

/-- A reference is no further in than the last pixel of the image. -/
theorem windowRow_input_le {pixel tap position : ℕ}
    (h : g.windowRow pixel tap = .input position) :
    position ≤ (g.input.height * g.input.width - 1) * g.pixelStride := by
  have hinside : ∀ {position padding size x : ℕ},
      insidePosition? position padding size = some x → x < size := by
    intro position padding size x hx
    obtain ⟨hlt, rfl⟩ := Option.ite_some_none_eq_some.mp hx
    exact hlt.2
  rw [windowRow] at h
  split at h
  next y x hy hx =>
    cases h
    have hpixel := block_add_lt (hinside hy) (hinside hx)
    exact Nat.mul_le_mul_right _ (by omega)
  next => cases h

section Tile

variable {mr n kc offset : ℕ} {input zero : Bytes} (hn : n < divideUp g.outputSize mr)
  (hinput : offset + (g.input.height * g.input.width - 1) * g.pixelStride + kc ≤ input.size)
  (hzero : kc ≤ zero.size)

include hn hinput hzero

theorem validate_tile : (IndirectView.mk ((g.table mr).tile n) input zero offset).validate mr
    g.kernelSize kc = .ok () := by
  rw [IndirectView.validate_eq_ok_iff_available]
  intro index hindex
  rw [Nat.mul_comm] at hindex
  obtain ⟨tap, htap, i, hi, rfl⟩ := exists_block_add hindex
  refine ⟨_, getElem?_tile hn htap hi, ?_⟩
  rw [IndirectView.available_eq]
  cases hrow : g.windowRow (min (n * mr + i) (g.outputSize - 1)) tap with
  | input position =>
    have hle := windowRow_input_le hrow
    simp only [IndirectView.source]
    omega
  | zero => exact hzero

theorem holds_tile (hkc : 0 < kc) :
    (IndirectView.mk ((g.table mr).tile n) input zero offset).Holds (mr * g.kernelSize) kc :=
  (IndirectView.validate_eq_ok_iff hkc).mp (validate_tile hn hinput hzero)

end Tile

end ConvGeometry

end QuantizedGemm
