import QuantizedGemm.Proofs.Kernel.Frame
import QuantizedGemm.Proofs.Oracle

/-!
# How the outputs of a problem lie

The strides of a valid test case may be given or follow from the tile, and those of a single row are
not checked against it. In each of these cases the outputs lie in the order of rows and columns,
with the last one at the end of the buffer (`OutputsApart`).

## Spans

A kernel makes one store for each row and column tile, of the columns of the tile that belong to the
problem. The span of a store is the positions of its columns (`image_outputPosition`), so that two
spans have no position in common (`notMem_storeSpan`).

## Stores

That a run makes these stores and no others (`StoresApart`) is said of all parameters. Portable
kernels may overflow in some tile, with parameters that no arguments lead to, and then the stores
end before it. If the run ends well, the bytes of every store are still there.
-/

namespace QuantizedGemm

/-- The positions that the store of row `i` of a column tile covers. -/
def storeSpan (n nr cm cn i tile : ℕ) : Set ℕ :=
  Set.Ico (tile * cn + i * cm) (tile * cn + i * cm + min nr (n - tile * nr))

/-- An output that lies in order, fills its buffer up to the last element, and is stored in spans
that do not meet. -/
structure OutputsApart (m n nr cm cn : ℕ) : Prop where
  injOn : Set.InjOn (fun x : ℕ × ℕ ↦ outputPosition nr cm cn x.1 x.2) (Set.Iio m ×ˢ Set.Iio n)
  /-- The order is that of rows, and of columns in a row. -/
  lt : ∀ i < m, ∀ i' < m, ∀ j < n, ∀ j' < n, i < i' ∨ i = i' ∧ j < j' →
    outputPosition nr cm cn i j < outputPosition nr cm cn i' j'
  lt_length : ∀ i < m, ∀ j < n, outputPosition nr cm cn i j < outputLength m n nr cm cn
  length_eq : outputLength m n nr cm cn = outputPosition nr cm cn (m - 1) (n - 1) + 1
  /-- A store covers the columns of its tile. -/
  image : ∀ i tile, outputPosition nr cm cn i ''
    Set.Ico (tile * nr) (tile * nr + min nr (n - tile * nr)) = storeSpan n nr cm cn i tile
  /-- No position is covered by two stores. -/
  disjoint : ∀ i < m, ∀ i' < m, ∀ tile tile', (i, tile) ≠ (i', tile') →
    ∀ q ∈ storeSpan n nr cm cn i tile, q ∉ storeSpan n nr cm cn i' tile'

/-! ## Spans -/

section Spans

variable {m n nr cm cn : ℕ}

/-- The columns of a tile lie next to each other, from where the store starts. -/
theorem image_outputPosition (i tile : ℕ) : outputPosition nr cm cn i ''
    Set.Ico (tile * nr) (tile * nr + min nr (n - tile * nr)) = storeSpan n nr cm cn i tile := by
  ext q
  constructor
  · rintro ⟨j, ⟨hle, hlt⟩, rfl⟩
    obtain ⟨l, rfl⟩ := Nat.exists_eq_add_of_le hle
    rw [outputPosition_tile (by omega)]
    exact ⟨Nat.le_add_right .., by omega⟩
  · rintro ⟨hle, hlt⟩
    obtain ⟨l, rfl⟩ := Nat.exists_eq_add_of_le hle
    exact ⟨tile * nr + l, ⟨Nat.le_add_right .., by omega⟩, outputPosition_tile (by omega) i⟩

/-- A position that two stores cover is an output of both, so that they are one. -/
theorem notMem_storeSpan (h : StridesDisjoint m n nr cm cn) {i i' tile tile' q : ℕ} (hi : i < m)
    (hi' : i' < m) (hne : (i, tile) ≠ (i', tile')) (hq : q ∈ storeSpan n nr cm cn i tile) :
    q ∉ storeSpan n nr cm cn i' tile' := by
  rw [← image_outputPosition] at hq ⊢
  obtain ⟨j, ⟨hle, hlt⟩, rfl⟩ := hq
  rintro ⟨j', ⟨hle', hlt'⟩, heq⟩
  obtain ⟨rfl, rfl⟩ := outputPosition_inj h hi' hi (by omega) (by omega) heq
  -- the column is in one tile only
  obtain ⟨l, rfl⟩ := Nat.exists_eq_add_of_le hle
  obtain ⟨l', hl'⟩ := Nat.exists_eq_add_of_le hle'
  obtain ⟨rfl, -⟩ := div_mul_add_mod_inj (by omega) (by omega) hl'
  exact hne rfl

theorem outputsApart_of_stridesDisjoint (hm : 0 < m) (hn : 0 < n)
    (h : StridesDisjoint m n nr cm cn) : OutputsApart m n nr cm cn where
  injOn := by
    rintro ⟨i, j⟩ ⟨hi, hj⟩ ⟨i', j'⟩ ⟨hi', hj'⟩ heq
    obtain ⟨rfl, rfl⟩ := outputPosition_inj h hi hi' hj hj' heq
    rfl
  lt _ _ _ hi' _ hj _ hj' hlex := outputPosition_lt h hi' hj hj' hlex
  lt_length _ hi _ hj := outputPosition_lt_outputLength h.1 hi hj
  length_eq := by rw [outputLength, if_neg (by omega), outputPosition]
  image := image_outputPosition
  disjoint _ hi _ hi' _ _ hne _ hq := notMem_storeSpan h hi hi' hne hq

end Spans

/-! ## Stores -/

/-- An accepted call computes and stores tile by tile, and row by row in a tile. -/
theorem Microkernel.Accumulates.kernel_eq_stores {π : Type} [ParamsFamily π] {k : Microkernel π}
    {value : π → UInt8 → Int32} {stage : π → Int32 → Except Fault UInt8} {sound : π → Prop}
    (hk : k.Accumulates value stage sound) {p : π} {host : Capabilities} {call : Call} {c : Bytes}
    (hp : call.params.get π = .ok p) (hhost : host.supports k.isa)
    (h : k.shape.Admits call c.size) :
    k.kernel host call c = ((List.range (k.shape.columnTiles call.nc)).forM fun tile ↦ do
      let out ← orRaise (k.compute p (call.operands k.shape tile))
      (List.range call.mr).forM fun i ↦
        storeRow (tile * call.cnStride + i * call.cmStride)
          (min k.shape.nr (call.nc - tile * k.shape.nr)) (out.getD i #[])) c := by
  rw [kernel_eq_forM hp hhost h]
  refine congrFun (forM_range_congr fun tile htile ↦ ?_) c
  cases hout : k.compute p (call.operands k.shape tile) with
  | error fault =>
    funext c'
    exact (runTile_eq_fault h htile hout).trans
      (run_bind_of_error (run_orRaise_of_error rfl)).symm
  | ok out =>
    funext c'
    refine (congrFun (runTile_eq_storeTile h htile hout) c').trans ?_
    rw [storeTile, hk.size_out (Call.operands_complete h htile) hout, Nat.min_eq_left h.mr_le]
    exact (run_bind_of_ok (run_orRaise rfl)).symm

namespace Problem

/-- A run of a variant on a problem that makes one store of a row of `tiles tile` for each column
tile and row, unless a tile overflows. Each store changes its span only, and if the run ends well
then the bytes of all stores are there. -/
structure StoresApart (v : Variant) (host : Capabilities) (p : Problem) (params : Params)
    (c : Bytes) (tiles : ℕ → Except Fault (Array Bytes)) : Prop where
  run : v.kernel host (p.call params) c =
    ((List.range (v.shape.columnTiles p.n)).forM fun tile ↦ do
      let rows ← orRaise (tiles tile)
      (List.range p.m).forM fun i ↦
        storeRow (tile * p.cnStride + i * p.cmStride) (min v.shape.nr (p.n - tile * v.shape.nr))
          (rows.getD i #[])) c
  writes : ∀ tile i row, WritesOnly (storeSpan p.n v.shape.nr p.cmStride p.cnStride i tile)
    (storeRow (tile * p.cnStride + i * p.cmStride) (min v.shape.nr (p.n - tile * v.shape.nr)) row)
  kept : ∀ b, v.kernel host (p.call params) c = .ok () b →
    ∀ tile < v.shape.columnTiles p.n, ∃ rows, tiles tile = .ok rows ∧ ∀ i < p.m,
      ∀ l < min v.shape.nr (p.n - tile * v.shape.nr),
        b[tile * p.cnStride + i * p.cmStride + l]? = some ((rows.getD i #[]).at0 l)

section Run

variable {t : TestCase} {p : Problem} (hp : p.Sound t) (h : t.Valid)

include hp h

theorem Sound.columns_apart (params : Params) :
    p.shape.nr ≤ (p.call params).cnStride ∨ (p.call params).nc ≤ p.shape.nr :=
  (hp.stridesDisjoint h).1

theorem Sound.exists_kernel_eq_ok {v : Variant} (hv : v ∈ Variant.catalogue)
    (hshape : v.shape = t.shape) {host : Capabilities} (hhost : host.supports v.isa)
    {a : QuantizationArgs} {params : Params} (hderive : v.derive a = .ok params) {c : Bytes}
    (hc : p.outputLength ≤ c.size) : ∃ b, v.kernel host (p.call params) c = .ok () b := by
  have hadmits : v.shape.Admits (p.call params) c.size := hshape ▸ hp.admits_call h params hc
  have hcolumns := hp.columns_apart h params
  rw [hp.shape_eq, ← hshape] at hcolumns
  exact ⟨_, Variant.kernel_eq_ok hv hhost hderive hadmits hcolumns⟩

theorem Sound.exists_storesApart {v : Variant} (hv : v ∈ Variant.catalogue)
    (hshape : v.shape = t.shape) {host : Capabilities} (hhost : host.supports v.isa)
    {params : Params} (hown : params.family = v.family) {c : Bytes}
    (hc : p.outputLength ≤ c.size) : ∃ tiles, StoresApart v host p params c tiles := by
  have hnr := (Variant.shape_pos hv).2.1
  have hadmits : v.shape.Admits (p.call params) c.size := hshape ▸ hp.admits_call h params hc
  have hstrides := hp.stridesDisjoint h
  rw [hp.shape_eq, ← hshape] at hstrides
  obtain ⟨π, _, _, k, value, stage, sound, hk⟩ := Variant.exists_implements hv
  obtain ⟨q, hget⟩ := Params.exists_get (hown.trans hk.family_eq)
  rw [hk.isa_eq] at hhost
  rw [hk.shape_eq] at hadmits hstrides hnr
  refine ⟨fun tile ↦ k.compute q ((p.call params).operands k.shape tile), ?_,
    fun tile i row ↦ .storeRow _ fun _ hle hlt ↦ ⟨hle, hlt⟩, ?_⟩
  · rw [hk.kernel_eq, hk.shape_eq]
    exact hk.accumulates.kernel_eq_stores hget hhost hadmits
  · rw [hk.kernel_eq, hk.shape_eq]
    intro b hrun tile htile
    obtain ⟨hcomputes, -, rfl⟩ :=
      hk.accumulates.eq_paint_of_ok (hk.onlyOverflows q) hnr hget hhost hadmits hrun
    refine ⟨_, (hcomputes tile htile).1, fun i hi l hl ↦ ?_⟩
    have hlane : l < k.shape.nr := by omega
    have hcolumn : tile * k.shape.nr + l < (p.call params).nc := by
      change _ < p.n
      omega
    have hbyte : (k.shape.paint (p.call params) (k.colour q (p.call params)) c)[_]? = _ :=
      TileShape.getElem?_paint hnr hstrides hi hcolumn hadmits.output
    rw [outputPosition_tile hlane, Microkernel.colour, block_add_div hlane,
      block_add_mod hlane] at hbyte
    exact hbyte

end Run

/-- **Outputs that are accepted lie apart.** The layout of a valid test case has no collisions. It
is the layout of every problem that is generated for it. In it every kernel for the tile stores each
row of each column tile into a span of its own, on every host that runs it, and it succeeds with all
parameters that are derived. -/
theorem validate_outputsApart {t : TestCase} (hvalid : t.validate = .ok ()) :
    OutputsApart t.m t.n t.shape.nr t.cmStride t.cnStride ∧
    ∀ {σ : Type} [WordSource σ] {attempts : ℕ} {source source' : σ} {p : Problem},
      (generate attempts t).run source = .ok (p, source') →
        OutputsApart p.m p.n p.shape.nr p.cmStride p.cnStride ∧
        (p.m = t.m ∧ p.n = t.n ∧
          p.outputPosition = QuantizedGemm.outputPosition t.shape.nr t.cmStride t.cnStride ∧
          p.outputLength = QuantizedGemm.outputLength t.m t.n t.shape.nr t.cmStride t.cnStride) ∧
        ∀ v ∈ Variant.catalogue, v.shape = t.shape → ∀ (host : Capabilities) (params : Params)
          (c : Bytes), host.supports v.isa → params.family = v.family →
            p.outputLength ≤ c.size → (∃ tiles, StoresApart v host p params c tiles) ∧
              ∀ a, v.derive a = .ok params → ∃ b, v.kernel host (p.call params) c = .ok () b := by
  have h : t.Valid := TestCase.validate_eq_ok_iff.mp hvalid
  refine ⟨outputsApart_of_stridesDisjoint h.m_pos h.n_pos h.stridesDisjoint, fun hrun ↦ ?_⟩
  obtain ⟨-, hp⟩ := sound_of_generate hrun
  refine ⟨outputsApart_of_stridesDisjoint (hp.m_eq ▸ h.m_pos) (hp.n_eq ▸ h.n_pos)
    (hp.stridesDisjoint h), ⟨hp.m_eq, hp.n_eq, ?_, ?_⟩,
    fun v hv hshape host params c hhost hown hc ↦
      ⟨hp.exists_storesApart h hv hshape hhost hown hc,
        fun a hderive ↦ hp.exists_kernel_eq_ok h hv hshape hhost hderive hc⟩⟩
  · funext i j
    rw [outputPosition, hp.shape_eq, hp.cmStride_eq, hp.cnStride_eq]
  · rw [outputLength, hp.m_eq, hp.n_eq, hp.shape_eq, hp.cmStride_eq, hp.cnStride_eq]

/-- A partial last tile, with a distance of rows that follows from the given one of tiles. -/
def sampleTiled : TestCase where
  shape := ⟨4, 4, 1, 1⟩
  m := 3
  n := 9
  givenCnStride := some 6

/-- One row, for which any distance of rows will do. -/
def sampleSingleRow : TestCase where
  shape := ⟨3, 4, 1, 1⟩
  m := 1
  n := 9
  givenCmStride := some 0

theorem sampleTiled_outputsApart : OutputsApart 1 9 4 0 4 ∧ OutputsApart 3 9 4 18 6 ∧
    ∃ p source', (generate 1 sampleTiled).run (ChaCha.Stream.ofSeed 3) = .ok (p, source') ∧
      let v : Variant := .portable RndnuParams ⟨4, 4, 1, 1⟩
      let params : Params :=
        .rndnu (QuantizationArgs.rndnuParams ⟨127, .ofBits 0x3C000000, 128, 0, 255⟩)
      (∃ tiles, StoresApart v (.scalarOnly 1) p params p.freshOutput tiles) ∧
        ∃ b, v.kernel (.scalarOnly 1) (p.call params) p.freshOutput = .ok () b := by
  obtain ⟨hlayout, hproblems⟩ := validate_outputsApart (t := sampleTiled) (by decide +kernel)
  have hrow := (validate_outputsApart (t := sampleSingleRow) (by decide +kernel)).1
  obtain ⟨⟨p, source'⟩, hrun⟩ := exists_eq_ok
    (x := (generate 1 sampleTiled).run (ChaCha.Stream.ofSeed 3)) (by decide +kernel)
  have hv : .portable RndnuParams ⟨4, 4, 1, 1⟩ ∈ Variant.catalogue := by
    simp [Variant.catalogue, Variant.portableVariants, Variant.fixedPointTiles]
  refine ⟨hrow, hlayout, p, source', hrun, ?_⟩
  intro v params
  obtain ⟨hstores, hderived⟩ := (hproblems hrun).2.2 v hv rfl (.scalarOnly 1) params p.freshOutput
    rfl rfl Array.size_replicate.ge
  exact ⟨hstores, hderived ⟨127, .ofBits 0x3C000000, 128, 0, 255⟩ (by decide +kernel)⟩

end Problem

end QuantizedGemm
