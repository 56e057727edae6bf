import QuantizedGemm.Kernel.Microkernel
import QuantizedGemm.Proofs.Bytes
import QuantizedGemm.Proofs.Outcome
import QuantizedGemm.Proofs.Tile

/-!
# What a kernel writes

A kernel stores row after row and tile after tile. When its check accepts and no store leaves the
buffer, the run is a fold of overwrites (`Microkernel.kernel_eq_paint`), here called painting: the
colour of output `(i, j)` is the byte that the computation of tile `j / nr` has at row `i` and
column `j % nr`.

## Painting

What painting does to the buffer depends on the strides alone. Under disjoint strides every output
has its own colour in the end, since no store hits the output of another (`getElem?_paint`). Where
strides overlap, the last store wins, and all that is said here is that the size stays.

## Two halves

A kernel is a computation of tiles and a way to store them. The second half is the same for all
kernels, and everything about it is proved here once, for any computation that succeeds on the
operands of the call (`Microkernel.Computes`). What a tile holds is a question about the first half,
and has a file for each kind of kernel.
-/

namespace QuantizedGemm

/-! ## Admitted calls -/

/-- The first `count` rows exist and have `kc` bytes each. -/
def IndirectView.Holds (v : IndirectView) (count kc : ℕ) : Prop :=
  ∀ index < count, ∃ row, v.row? index = some row ∧ kc ≤ row.size

def IndirectView.byteAt (v : IndirectView) (index k : ℕ) : UInt8 :=
  ((v.row? index).getD #[]).at0 k

/-- What the check of a call establishes. -/
structure TileShape.Admits (t : TileShape) (call : Call) (outputSize : ℕ) : Prop where
  mr_pos : 0 < call.mr
  mr_le : call.mr ≤ t.mr
  nc_pos : 0 < call.nc
  kc_pos : 0 < call.kc
  ks_pos : 0 < call.ks
  rows : call.view.Holds (t.mr * call.ks) call.kc
  weights : t.packedSize ⟨call.nc, call.ks, call.kc⟩ ≤ call.weights.size
  output : outputLength call.mr call.nc t.nr call.cmStride call.cnStride ≤ outputSize

namespace IndirectView

variable {v : IndirectView}

theorem row?_eq {index : ℕ} {r : IndirectRow} (h : v.rows[index]? = some r) :
    v.row? index = if (v.source r).2 ≤ (v.source r).1.size then
      some ((v.source r).1.extract (v.source r).2 (v.source r).1.size) else none := by
  simp [row?, h]

theorem fetch?_eq {index : ℕ} {r : IndirectRow} (h : v.rows[index]? = some r) (kc : ℕ) :
    v.fetch? index kc = if (v.source r).2 + kc ≤ (v.source r).1.size then
      some ((v.source r).1.extract (v.source r).2 ((v.source r).2 + kc)) else none := by
  simp [fetch?, h]

theorem byteAt_eq {index : ℕ} {r : IndirectRow} (h : v.rows[index]? = some r) (k : ℕ) :
    v.byteAt index k = (v.source r).1.at0 ((v.source r).2 + k) := by
  rw [byteAt, row?_eq h, Bytes.at0_eq, Bytes.at0_eq]
  split_ifs with hle
  · rw [Option.getD_some, Array.getElem?_extract, Nat.min_self]
    split_ifs with hlt
    · rfl
    · rw [Array.getElem?_eq_none (by omega : (v.source r).1.size ≤ (v.source r).2 + k)]
  · rw [Option.getD_none, Array.getElem?_empty, Array.getElem?_eq_none (by omega)]

theorem fetch?_of_row? {index kc : ℕ} {row : Bytes} (h : v.row? index = some row)
    (hkc : kc ≤ row.size) : v.fetch? index kc = some (row.extract 0 kc) := by
  rcases hr : v.rows[index]? with _ | r
  · simp [row?, hr] at h
  · rw [row?_eq hr] at h
    obtain ⟨hle, rfl⟩ := Option.ite_some_none_eq_some.mp h
    rw [Array.size_extract] at hkc
    rw [fetch?_eq hr, if_pos (by omega), Array.extract_extract, Nat.add_zero,
      Nat.min_eq_left (by omega)]

theorem available_eq (r : IndirectRow) :
    v.available r = (v.source r).1.size - (v.source r).2 := rfl

/-- A row has `kc` bytes, if any are wanted, where as many are available. -/
theorem row?_iff_available {index kc : ℕ} {r : IndirectRow} (h : v.rows[index]? = some r)
    (hkc : 0 < kc) : (∃ row, v.row? index = some row ∧ kc ≤ row.size) ↔ kc ≤ v.available r := by
  rw [row?_eq h, available_eq]
  constructor
  · rintro ⟨row, hrow, hsize⟩
    obtain ⟨-, rfl⟩ := Option.ite_some_none_eq_some.mp hrow
    rwa [Array.size_extract, Nat.min_self] at hsize
  · intro hle
    refine ⟨_, if_pos (by omega), ?_⟩
    rwa [Array.size_extract, Nat.min_self]

/-- Validation asks for `mr * ks` entries with `kc` bytes each. -/
theorem validate_eq_ok_iff_available {mr ks kc : ℕ} :
    v.validate mr ks kc = .ok () ↔
      ∀ index < mr * ks, ∃ r, v.rows[index]? = some r ∧ kc ≤ v.available r := by
  have hvalid : v.validate mr ks kc = .ok () ↔ mr * ks ≤ v.rows.size ∧
      ∀ r ∈ v.rows.toList.take (mr * ks), kc ≤ v.available r := by
    unfold validate
    rw [check_bind_eq_ok_iff, requireLength_eq_ok_iff]
    refine and_congr_right fun _ ↦ ?_
    split
    next h => simpa [pure, Except.pure] using h
    next r h =>
      have hshort := List.find?_some h
      rw [decide_eq_true_iff] at hshort
      rw [requireLength_eq_ok_iff]
      refine ⟨fun hle ↦ ?_, fun hall ↦ hall r (List.mem_of_find?_eq_some h)⟩
      omega
  rw [hvalid]
  constructor
  · rintro ⟨hsize, havailable⟩ index hindex
    refine ⟨_, Array.getElem?_eq_getElem (hindex.trans_le hsize), havailable _ ?_⟩
    exact List.mem_take_iff_getElem.mpr ⟨index, by simp; omega, rfl⟩
  · intro hentries
    have hsize : mr * ks ≤ v.rows.size := by
      -- otherwise the entry right past the table would exist
      by_contra hlt
      obtain ⟨r, hr, -⟩ := hentries v.rows.size (by omega)
      simp at hr
    refine ⟨hsize, fun r hr ↦ ?_⟩
    obtain ⟨index, hindex, rfl⟩ := List.mem_take_iff_getElem.mp hr
    obtain ⟨r, hr, hle⟩ := hentries index (by omega)
    rw [Array.getElem?_eq_some_iff] at hr
    obtain ⟨_, rfl⟩ := hr
    exact hle

theorem validate_eq_ok_iff {mr ks kc : ℕ} (hkc : 0 < kc) :
    v.validate mr ks kc = .ok () ↔ v.Holds (mr * ks) kc := by
  rw [validate_eq_ok_iff_available]
  refine forall₂_congr fun index _ ↦ ?_
  cases hr : v.rows[index]? with
  | none => simp [row?, hr]
  | some r =>
    rw [row?_iff_available hr hkc]
    simp

theorem at0_fetch? {count kc index k : ℕ} (h : v.Holds count kc) (hindex : index < count)
    (hk : k < kc) : ((v.fetch? index kc).getD #[]).at0 k = v.byteAt index k := by
  obtain ⟨row, hrow, hsize⟩ := h index hindex
  rw [byteAt, fetch?_of_row? hrow hsize, hrow, Option.getD_some, Option.getD_some, Bytes.at0_eq,
    Bytes.at0_eq, Array.getElem?_extract, if_pos (by omega), Nat.zero_add]

end IndirectView

@[simp] theorem TileShape.check_eq_ok_iff {t : TileShape} {call : Call} {size : ℕ} :
    t.check call size = .ok () ↔ t.Admits call size := by
  unfold check
  dsimp only
  rw [refuse_if_eq_ok_iff, check_bind_eq_ok_iff, check_bind_eq_ok_iff, requireLength_eq_ok_iff,
    requireLength_eq_ok_iff]
  constructor
  · rintro ⟨hsizes, hrows, hweights, houtput⟩
    refine ⟨by omega, by omega, by omega, by omega, by omega, ?_, hweights, houtput⟩
    exact (IndirectView.validate_eq_ok_iff (by omega)).mp hrows
  · rintro ⟨hmr, hle, hnc, hkc, hks, hrows, hweights, houtput⟩
    exact ⟨by omega, (IndirectView.validate_eq_ok_iff hkc).mpr hrows, hweights, houtput⟩

/-! ## Painting -/

namespace TileShape

variable (t : TileShape) (call : Call) (colour : ℕ → ℕ → UInt8)

def tileColumns (tile : ℕ) : ℕ := min t.nr (call.nc - tile * t.nr)

def paintRow (tile : ℕ) (c : Bytes) (i : ℕ) : Bytes :=
  c.overwrite (tile * call.cnStride + i * call.cmStride) (t.tileColumns call tile)
    fun l ↦ colour i (tile * t.nr + l)

/-- Paints the rows of a tile that belong to the call. -/
def paintTile (c : Bytes) (tile : ℕ) : Bytes :=
  (List.range call.mr).foldl (t.paintRow call colour tile) c

/-- Paints a whole output. -/
def paint (c : Bytes) : Bytes :=
  (List.range (t.columnTiles call.nc)).foldl (t.paintTile call colour) c

variable {t call colour}

@[simp] theorem size_paintRow (tile : ℕ) (c : Bytes) (i : ℕ) :
    (t.paintRow call colour tile c i).size = c.size := Bytes.size_overwrite ..

@[simp] theorem size_paintTile (c : Bytes) (tile : ℕ) :
    (t.paintTile call colour c tile).size = c.size := by
  refine List.foldlRecOn (motive := fun c' : Bytes ↦ c'.size = c.size) _ _ rfl fun c' hc i _ ↦ ?_
  exact (size_paintRow tile c' i).trans hc

@[simp] theorem size_paint (c : Bytes) : (t.paint call colour c).size = c.size := by
  refine List.foldlRecOn (motive := fun c' : Bytes ↦ c'.size = c.size) _ _ rfl fun c' hc tile _ ↦ ?_
  exact (size_paintTile c' tile).trans hc

theorem column_lt {tile l : ℕ} (hl : l < t.tileColumns call tile) : tile * t.nr + l < call.nc := by
  unfold tileColumns at hl
  omega

theorem position_of_lt {tile l : ℕ} (hl : l < t.tileColumns call tile) (i : ℕ) :
    outputPosition t.nr call.cmStride call.cnStride i (tile * t.nr + l) =
      tile * call.cnStride + i * call.cmStride + l :=
  outputPosition_tile (hl.trans_le (Nat.min_le_left ..)) i

theorem mod_lt_tileColumns {j : ℕ} (hnr : 0 < t.nr) (hj : j < call.nc) :
    j % t.nr < t.tileColumns call (j / t.nr) := by
  have hmod := Nat.mod_lt j hnr
  have hdiv := Nat.div_add_mod' j t.nr
  unfold tileColumns
  omega

theorem store_le_outputLength (hcols : t.nr ≤ call.cnStride ∨ call.nc ≤ t.nr) {tile i : ℕ}
    (htile : tile < t.columnTiles call.nc) (hi : i < call.mr) :
    tile * call.cnStride + i * call.cmStride + t.tileColumns call tile ≤
      outputLength call.mr call.nc t.nr call.cmStride call.cnStride := by
  have hnr : 0 < t.nr := by
    rcases t.nr.eq_zero_or_pos with hzero | hpos
    · simp [columnTiles, divideUp, hzero] at htile
    · exact hpos
  have hstart := mul_lt_of_lt_divideUp hnr htile
  have hlast : t.tileColumns call tile - 1 < t.tileColumns call tile := by
    unfold tileColumns
    omega
  have hlt : outputPosition _ call.cmStride call.cnStride i _ < _ :=
    outputPosition_lt_outputLength hcols hi (column_lt hlast)
  rw [position_of_lt hlast] at hlt
  omega

section Untouched

variable {q : ℕ} (h : ∀ i < call.mr, ∀ j < call.nc,
  q ≠ outputPosition t.nr call.cmStride call.cnStride i j)

include h

end Untouched

theorem paint_congr {colour' : ℕ → ℕ → UInt8}
    (h : ∀ i < call.mr, ∀ j < call.nc, colour i j = colour' i j) (c : Bytes) :
    t.paint call colour c = t.paint call colour' c := by
  refine List.foldl_ext _ _ _ fun c tile _ ↦ List.foldl_ext _ _ _ fun c i hi ↦ ?_
  exact Bytes.overwrite_congr _ _ fun l hl ↦ h i (List.mem_range.mp hi) _ (column_lt hl)

section Disjoint

variable {i j : ℕ} {b : Bytes}

theorem getElem?_paintRow (hnr : 0 < t.nr) (hcols : t.nr ≤ call.cnStride ∨ call.nc ≤ t.nr)
    (hi : i < call.mr) (hj : j < call.nc)
    (hsize : outputLength call.mr call.nc t.nr call.cmStride call.cnStride ≤ b.size) :
    (t.paintRow call colour (j / t.nr) b i)[outputPosition t.nr call.cmStride call.cnStride i j]? =
      some (colour i j) := by
  have hl := mod_lt_tileColumns hnr hj
  have hj' := Nat.div_add_mod' j t.nr
  have hpos := position_of_lt hl i
  have hlt : outputPosition t.nr call.cmStride call.cnStride i j < _ :=
    outputPosition_lt_outputLength hcols hi hj
  rw [hj'] at hpos
  rw [hpos] at hlt
  rw [hpos, paintRow, Bytes.getElem?_overwrite, if_pos (by omega), Nat.add_sub_cancel_left, hj']

/-- No store of another row or tile changes an output that is painted. -/
theorem getElem?_paintRow_of_eq {tile i' : ℕ}
    (hstrides : StridesDisjoint call.mr call.nc t.nr call.cmStride call.cnStride)
    (hi : i < call.mr) (hi' : i' < call.mr) (hj : j < call.nc)
    (hb : b[outputPosition t.nr call.cmStride call.cnStride i j]? = some (colour i j)) :
    (t.paintRow call colour tile b i')[outputPosition t.nr call.cmStride call.cnStride i j]? =
      some (colour i j) := by
  rw [paintRow, Bytes.getElem?_overwrite]
  split_ifs with hin
  · obtain ⟨l, hl⟩ := Nat.exists_eq_add_of_le hin.1
    have hlt : l < t.tileColumns call tile := by omega
    rw [← position_of_lt hlt] at hl
    obtain ⟨rfl, rfl⟩ := outputPosition_inj hstrides hi hi' hj (column_lt hlt) hl
    rw [position_of_lt hlt, Nat.add_sub_cancel_left]
  · exact hb

/-- Under disjoint strides, every output has its own colour in the end. -/
theorem getElem?_paint (hnr : 0 < t.nr)
    (hstrides : StridesDisjoint call.mr call.nc t.nr call.cmStride call.cnStride)
    (hi : i < call.mr) (hj : j < call.nc)
    (hsize : outputLength call.mr call.nc t.nr call.cmStride call.cnStride ≤ b.size) :
    (t.paint call colour b)[outputPosition t.nr call.cmStride call.cnStride i j]? =
      some (colour i j) := by
  let Painted : Bytes → Prop := fun b' ↦
    b'[outputPosition t.nr call.cmStride call.cnStride i j]? = some (colour i j)
  have hkeep : ∀ tile, ∀ i' ∈ List.range call.mr, ∀ b', Painted b' →
      Painted (t.paintRow call colour tile b' i') := fun tile i' hi' b' hb' ↦
    getElem?_paintRow_of_eq hstrides hi (List.mem_range.mp hi') hj hb'
  -- one store paints the output; every store before keeps the size, every one after the colour
  refine foldl_of_mem (I := fun b' ↦ b'.size = b.size) (P := Painted)
    (fun tile _ b' hb' ↦ (size_paintTile b' tile).trans hb')
    (fun tile _ b' _ hb' ↦ List.foldlRecOn _ _ hb' fun b' hb' i' hi' ↦ hkeep tile i' hi' b' hb')
    (List.mem_range.mpr (div_lt_divideUp hnr hj)) (fun b' hsame ↦ ?_) rfl
  exact foldl_of_mem (I := fun b' ↦ b'.size = b.size) (P := Painted)
    (fun i' _ b' hb' ↦ (size_paintRow _ b' i').trans hb')
    (fun i' hi' b' _ hb' ↦ hkeep _ i' hi' b' hb') (List.mem_range.mpr hi)
    (fun b' hb' ↦ getElem?_paintRow hnr hstrides.1 hi hj (hb' ▸ hsize)) hsame

end Disjoint

end TileShape

/-! ## Operands -/

def Call.operands (call : Call) (t : TileShape) (tile : ℕ) : TileOperands where
  kc := call.kc
  ks := call.ks
  rows := ((List.range (call.ks * t.mr)).map fun index ↦
    (call.view.fetch? index call.kc).getD #[]).toArray
  weights := call.weights.extract (tile * t.packedTileSize call.ks call.kc)
    ((tile + 1) * t.packedTileSize call.ks call.kc)

def TileOperands.activation (o : TileOperands) (row k : ℕ) : UInt8 := (o.rows.getD row #[]).at0 k

/-- Operands with a byte for every position of a tile, and no more. -/
structure TileOperands.Complete (t : TileShape) (o : TileOperands) : Prop where
  size_rows : o.rows.size = o.ks * t.mr
  size_row {row : Bytes} (hrow : row ∈ o.rows) : row.size = o.kc
  size_weights : o.weights.size = t.packedTileSize o.ks o.kc

@[simp] theorem Call.operands_kc (call : Call) (t : TileShape) (tile : ℕ) :
    (call.operands t tile).kc = call.kc := rfl

@[simp] theorem Call.operands_ks (call : Call) (t : TileShape) (tile : ℕ) :
    (call.operands t tile).ks = call.ks := rfl

section Operands

variable {t : TileShape} {call : Call} {size : ℕ} (h : t.Admits call size)

include h

theorem fetchRows?_of_admits (tile : ℕ) :
    call.fetchRows? t.mr = some (call.operands t tile).rows := by
  rw [Call.fetchRows?, mapM_eq_some fun index hindex ↦ ?_]
  · rfl
  · rw [List.mem_range, Nat.mul_comm] at hindex
    obtain ⟨row, hrow, hsize⟩ := h.rows index hindex
    rw [IndirectView.fetch?_of_row? hrow hsize, Option.getD_some]

theorem tileWeights?_of_admits {tile : ℕ} (htile : tile < t.columnTiles call.nc) :
    call.tileWeights? (t.packedTileSize call.ks call.kc) tile =
      some (call.operands t tile).weights := by
  have hle := (Nat.mul_le_mul_right (t.packedTileSize call.ks call.kc) htile).trans h.weights
  rw [Call.tileWeights?, if_pos hle, Call.operands]

/-- An accepted call has complete operands for each of its tiles. -/
theorem Call.operands_complete {tile : ℕ} (htile : tile < t.columnTiles call.nc) :
    (call.operands t tile).Complete t where
  size_rows := by simp [Call.operands]
  size_row hrow := by
    rw [Call.operands, List.mem_toArray, List.mem_map] at hrow
    obtain ⟨index, hindex, rfl⟩ := hrow
    rw [List.mem_range, Nat.mul_comm] at hindex
    obtain ⟨row, hrow, hsize⟩ := h.rows index hindex
    rw [IndirectView.fetch?_of_row? hrow hsize, Option.getD_some, Array.size_extract,
      Nat.min_eq_left hsize, Nat.sub_zero]
    rfl
  size_weights := by
    have hle := (Nat.mul_le_mul_right (t.packedTileSize call.ks call.kc) htile).trans h.weights
    rw [Call.operands, Array.size_extract, Nat.min_eq_left hle, Nat.succ_mul,
      Nat.add_sub_cancel_left]

theorem activation_operands (tile : ℕ) {index k : ℕ} (hindex : index < call.ks * t.mr)
    (hk : k < call.kc) :
    (call.operands t tile).activation index k = call.view.byteAt index k := by
  rw [TileOperands.activation, Call.operands, Array.getD_eq_getD_getElem?, List.getElem?_toArray,
    List.getElem?_map, List.getElem?_range hindex, Option.map_some, Option.getD_some]
  exact IndirectView.at0_fetch? h.rows (by rwa [Nat.mul_comm]) hk

end Operands

/-! ## Runs -/

namespace Microkernel

variable {π : Type} {k : Microkernel π} {p : π} {host : Capabilities} {call : Call} {c : Bytes}

def tileOutput (k : Microkernel π) (p : π) (call : Call) (tile : ℕ) : Array Bytes :=
  (k.compute p (call.operands k.shape tile)).toOption.getD #[]

/-- The output of a call in row `i` and column `j`, as the computation of its tile has it. -/
def colour (k : Microkernel π) (p : π) (call : Call) (i j : ℕ) : UInt8 :=
  ((k.tileOutput p call (j / k.shape.nr)).getD i #[]).at0 (j % k.shape.nr)

/-- Every tile of a call is computed, with all of its rows. -/
def Computes (k : Microkernel π) (p : π) (call : Call) : Prop :=
  ∀ tile < k.shape.columnTiles call.nc,
    k.compute p (call.operands k.shape tile) = .ok (k.tileOutput p call tile) ∧
      (k.tileOutput p call tile).size = k.shape.mr

theorem tileOutput_of_ok {tile : ℕ} {out : Array Bytes}
    (h : k.compute p (call.operands k.shape tile) = .ok out) : k.tileOutput p call tile = out := by
  rw [tileOutput, h]
  rfl

theorem storeRow_eq_ok {start cols : ℕ} (row : Bytes) (h : start + cols ≤ c.size) :
    storeRow start cols row c = .ok () (c.overwrite start cols row.at0) := by
  unfold storeRow
  rw [run_bind_of_ok run_get, if_pos h]
  rfl

theorem runTile_eq_storeTile {size tile : ℕ} (h : k.shape.Admits call size)
    (htile : tile < k.shape.columnTiles call.nc) {out : Array Bytes}
    (hout : k.compute p (call.operands k.shape tile) = .ok out) :
    k.runTile p call (call.operands k.shape tile).rows tile =
      storeTile out call.mr (k.shape.tileColumns call tile) (tile * call.cnStride)
        call.cmStride := by
  funext c
  unfold runTile
  dsimp only
  rw [tileWeights?_of_admits h htile, run_bind_of_ok (run_orFault rfl)]
  exact run_bind_of_ok (run_orRaise hout)

theorem runTile_eq_fault {size tile : ℕ} (h : k.shape.Admits call size)
    (htile : tile < k.shape.columnTiles call.nc) {fault : Fault}
    (hfault : k.compute p (call.operands k.shape tile) = .error fault) :
    k.runTile p call (call.operands k.shape tile).rows tile c = .error (.fault fault) c := by
  unfold runTile
  dsimp only
  rw [tileWeights?_of_admits h htile, run_bind_of_ok (run_orFault rfl)]
  exact run_bind_of_error (run_orRaise_of_error hfault)

/-- The stores of one tile paint it, if they fit. -/
theorem runTile_eq_ok (h : k.shape.Admits call c.size) (hcomputes : k.Computes p call) {tile : ℕ}
    (htile : tile < k.shape.columnTiles call.nc)
    (hfits : ∀ i < call.mr,
      tile * call.cnStride + i * call.cmStride + k.shape.tileColumns call tile ≤ c.size) :
    k.runTile p call (call.operands k.shape tile).rows tile c =
      .ok () (k.shape.paintTile call (k.colour p call) c tile) := by
  obtain ⟨hout, hsize⟩ := hcomputes tile htile
  rw [runTile_eq_storeTile h htile hout, storeTile, TileShape.paintTile, hsize,
    Nat.min_eq_left h.mr_le]
  refine forM_eq_ok (I := fun c' ↦ c'.size = c.size) (fun i hi c' hc' ↦ ?_) rfl
  refine ⟨?_, (TileShape.size_paintRow ..).trans hc'⟩
  rw [storeRow_eq_ok _ (hc' ▸ hfits i (List.mem_range.mp hi)), TileShape.paintRow]
  refine congrArg (EStateM.Result.ok ()) (Bytes.overwrite_congr _ _ fun l hl ↦ ?_)
  have hl : l < k.shape.nr := hl.trans_le (Nat.min_le_left ..)
  rw [colour, block_add_div hl, block_add_mod hl]

theorem kernel_eq_forM [ParamsFamily π] (hp : call.params.get π = .ok p)
    (hhost : host.supports k.isa) (h : k.shape.Admits call c.size) :
    k.kernel host call c = (List.range (k.shape.columnTiles call.nc)).forM
      (k.runTile p call (call.operands k.shape 0).rows) c := by
  unfold kernel
  rw [run_bind_of_ok (run_orRefuse hp), run_bind_of_ok run_get,
    run_bind_of_ok (run_orRefuse (TileShape.check_eq_ok_iff.mpr h)), hhost]
  exact run_bind_of_ok (run_orFault (fetchRows?_of_admits h 0))

theorem exists_compute_of_ok [ParamsFamily π] (hp : call.params.get π = .ok p)
    (hhost : host.supports k.isa) (h : k.shape.Admits call c.size) {c' : Bytes}
    (hrun : k.kernel host call c = .ok () c') {tile : ℕ}
    (htile : tile < k.shape.columnTiles call.nc) :
    ∃ out, k.compute p (call.operands k.shape tile) = .ok out := by
  rw [kernel_eq_forM hp hhost h] at hrun
  obtain ⟨c₁, c₂, hstep⟩ := of_forM_eq_ok hrun (List.mem_range.mpr htile)
  cases hout : k.compute p (call.operands k.shape tile) with
  | ok out => exact ⟨out, rfl⟩
  | error fault => cases (runTile_eq_fault h htile hout).symm.trans hstep

/-- An admitted call whose tiles are computed and whose stores fit paints the output. -/
theorem kernel_eq_paint [ParamsFamily π] (hp : call.params.get π = .ok p)
    (hhost : host.supports k.isa) (h : k.shape.Admits call c.size) (hcomputes : k.Computes p call)
    (hfits : ∀ tile < k.shape.columnTiles call.nc, ∀ i < call.mr,
      tile * call.cnStride + i * call.cmStride + k.shape.tileColumns call tile ≤ c.size) :
    k.kernel host call c = .ok () (k.shape.paint call (k.colour p call) c) := by
  rw [kernel_eq_forM hp hhost h]
  refine forM_eq_ok (I := fun c' ↦ c'.size = c.size) (fun tile htile c' hc' ↦ ?_) rfl
  have htile := List.mem_range.mp htile
  refine ⟨?_, (TileShape.size_paintTile ..).trans hc'⟩
  exact runTile_eq_ok (hc' ▸ h) hcomputes htile (hc' ▸ hfits tile htile)

/-- The stores of an admitted call fit if its columns do not reach into one another. -/
theorem kernel_eq_ok [ParamsFamily π] (hp : call.params.get π = .ok p)
    (hhost : host.supports k.isa) (h : k.shape.Admits call c.size) (hcomputes : k.Computes p call)
    (hcols : k.shape.nr ≤ call.cnStride ∨ call.nc ≤ k.shape.nr) :
    k.kernel host call c = .ok () (k.shape.paint call (k.colour p call) c) :=
  kernel_eq_paint hp hhost h hcomputes fun _ htile _ hi ↦
    (TileShape.store_le_outputLength hcols htile hi).trans h.output

theorem kernel_writes [ParamsFamily π] (hp : call.params.get π = .ok p)
    (hhost : host.supports k.isa) (h : k.shape.Admits call c.size) (hcomputes : k.Computes p call)
    (hnr : 0 < k.shape.nr)
    (hstrides : StridesDisjoint call.mr call.nc k.shape.nr call.cmStride call.cnStride) :
    ∃ c', k.kernel host call c = .ok () c' ∧ ∀ i < call.mr, ∀ j < call.nc,
      c'[outputPosition k.shape.nr call.cmStride call.cnStride i j]? =
        some (k.colour p call i j) :=
  ⟨_, kernel_eq_ok hp hhost h hcomputes hstrides.1, fun _ hi _ hj ↦
    TileShape.getElem?_paint hnr hstrides hi hj h.output⟩

end Microkernel

end QuantizedGemm
