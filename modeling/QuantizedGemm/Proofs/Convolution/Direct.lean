import QuantizedGemm.Execution
import QuantizedGemm.Proofs.Convolution.Window
import QuantizedGemm.Proofs.Kernel.Catalogue

/-!
# Tiled convolutions

A convolution runs as one kernel call for each tile of output pixels. This file shows that the calls
together compute the convolution that is written down directly, as a sum over the window of each
output (`Convolution.run_eq_direct`).

## The invariant of the run

A call works on the output from the start of its own tile on, so that it sees the output of later
tiles, and not that of earlier ones. What carries the run is that a call finishes the pixels of its
tile and leaves those before it alone; what it does to the pixels behind does not matter, since
their own calls come later.

## Windows

The table of references was made to follow the windows of the output pixels, and padding stands for
a row of zero points. So the accumulator of a pixel is a sum over taps and channels in which
positions outside of the image drop out (`Convolution.accumulator_windowByte`), and no trace of
tiles or of the table is left.
-/

namespace QuantizedGemm

open Finset

/-- Only the activations of the window matter. -/
theorem Filter.accumulator_congr {f : Filter} {zp : ZeroPoints}
    {activation activation' : ℕ → ℕ → UInt8}
    (h : ∀ tap < f.ks, ∀ k < f.kc, activation tap k = activation' tap k) (channel : ℕ) :
    f.accumulator zp activation channel = f.accumulator zp activation' channel := by
  rw [accumulator, accumulator]
  congr 2
  refine sum_congr rfl fun tap htap ↦ sum_congr rfl fun k hk ↦ ?_
  rw [h tap (mem_range.mp htap) k (mem_range.mp hk)]

/-! ## Runs on a suffix -/

theorem onSuffix_eq_ok {start : ℕ} {run : EStateM Failure Bytes Unit} {b back : Bytes}
    (h : run (b.extract start b.size) = .ok () back) :
    onSuffix start run b = .ok () (b.extract 0 start ++ back) := by
  rw [onSuffix, h]

theorem getElem?_front_append {b : Bytes} {start : ℕ} (hstart : start ≤ b.size) (back : Bytes)
    (i : ℕ) :
    (b.extract 0 start ++ back)[i]? = if i < start then b[i]? else back[i - start]? := by
  have hsize : (b.extract 0 start).size = start := by
    rw [Array.size_extract]
    omega
  rw [Array.getElem?_append, hsize]
  by_cases hi : i < start
  · rw [if_pos hi, if_pos hi, Array.getElem?_extract, if_pos (by omega), Nat.zero_add]
  · rw [if_neg hi, if_neg hi]

namespace Convolution

variable (c : Convolution)

/-! ## The direct convolution -/

def pixel (y x k : ℕ) : UInt8 :=
  c.input.at0 (c.offset + (y * c.geometry.input.width + x) * c.geometry.pixelStride + k)

/-- The weight of output channel `j` for channel `k` of the pixel at a tap. -/
def tapWeight (j ky kx k : ℕ) : UInt8 :=
  c.weights.at0 ((j * c.geometry.kernelSize + ky * c.geometry.kernel.width + kx) * c.kc + k)

/-- What a tap adds to channel `j` of output pixel `(oy, ox)`. The padding adds nothing. -/
def tapProduct (oy ox j ky kx k : ℕ) : ℤ :=
  if c.geometry.Inside oy ox ky kx then
    ((c.pixel (c.geometry.imageRow oy ky).toNat (c.geometry.imageColumn ox kx).toNat k).toNat -
      c.zeroPoints.input.toNat) * ((c.tapWeight j ky kx k).toNat - c.zeroPoints.kernel.toNat)
  else 0

/-- The accumulator of channel `j` of output pixel `(oy, ox)`, reduced to 32 bits. -/
def directAccumulator (oy ox j : ℕ) : Int32 :=
  Int32.ofInt ((c.filter.biasAt j).toInt + ∑ ky ∈ range c.geometry.kernel.height,
    ∑ kx ∈ range c.geometry.kernel.width, ∑ k ∈ range c.kc, c.tapProduct oy ox j ky kx k)

/-- What a tap reads, where the padding reads as the zero point. -/
def windowByte (pixel tap k : ℕ) : UInt8 :=
  match c.geometry.windowRow pixel tap with
  | .input position => c.input.at0 (position + c.offset + k)
  | .zero => c.zeroPoints.input

variable {c}

theorem windowByte_eq {oy ox ky kx : ℕ} (hox : ox < c.geometry.output.width)
    (hkx : kx < c.geometry.kernel.width) (k : ℕ) :
    c.windowByte (oy * c.geometry.output.width + ox) (ky * c.geometry.kernel.width + kx) k =
      if c.geometry.Inside oy ox ky kx then
        c.pixel (c.geometry.imageRow oy ky).toNat (c.geometry.imageColumn ox kx).toNat k
      else c.zeroPoints.input := by
  rw [windowByte, ConvGeometry.windowRow_eq hox hkx]
  by_cases hinside : c.geometry.Inside oy ox ky kx
  · rw [if_pos hinside, if_pos hinside, pixel, Nat.add_comm c.offset]
  · rw [if_neg hinside, if_neg hinside]

/-- The accumulator of a window is the direct one. -/
theorem accumulator_windowByte {oy ox : ℕ} (hox : ox < c.geometry.output.width) (j : ℕ) :
    c.filter.accumulator c.zeroPoints (c.windowByte (oy * c.geometry.output.width + ox)) j =
      c.directAccumulator oy ox j := by
  rw [Filter.accumulator, directAccumulator]
  change Int32.ofInt (_ + ∑ tap ∈ range (c.geometry.kernel.height * c.geometry.kernel.width), _) = _
  rw [← sum_range_blocks]
  congr 2
  refine sum_congr rfl fun ky _ ↦ sum_congr rfl fun kx hkx ↦ sum_congr rfl fun k _ ↦ ?_
  have hweight : c.filter.weight j (ky * c.geometry.kernel.width + kx) k =
      c.tapWeight j ky kx k := by
    rw [tapWeight, Nat.add_assoc]
    rfl
  rw [windowByte_eq hox (mem_range.mp hkx), hweight, tapProduct]
  by_cases hinside : c.geometry.Inside oy ox ky kx
  · rw [if_pos hinside, if_pos hinside]
  · rw [if_neg hinside, if_neg hinside, sub_self, zero_mul]

/-! ## One tile -/

structure WellSized (c : Convolution) : Prop where
  nc_pos : 0 < c.nc
  kc_pos : 0 < c.kc
  reduction : c.geometry.kernelSize * c.kc ≤ maxReduction
  weights : c.nc * c.geometry.kernelSize * c.kc ≤ c.weights.size
  bias : ∀ b, c.bias = some b → c.nc ≤ b.size
  /-- The image is part of the input. -/
  input : c.offset + (c.geometry.input.height * c.geometry.input.width - 1) *
    c.geometry.pixelStride + c.kc ≤ c.input.size
  /-- The zero point that is folded into the bias is the one that kernels take off. -/
  zeroPoint : c.args.kernelZeroPoint = c.zeroPoints.kernel

section Tile

variable {v : Variant} {weights : Bytes} {params : Params} {n : ℕ}

def callOf (c : Convolution) (t : TileShape) (weights : Bytes) (params : Params) (n : ℕ) : Call :=
  c.tileCall t (c.geometry.table t.mr) weights params n

@[simp] theorem mr_callOf (t : TileShape) :
    (c.callOf t weights params n).mr = min t.mr (c.geometry.outputSize - n * t.mr) := rfl

theorem byteAt_callOf {t : TileShape} (hn : n < divideUp c.geometry.outputSize t.mr) {i tap k : ℕ}
    (hi : i < (c.callOf t weights params n).mr) (htap : tap < c.geometry.kernelSize)
    (hk : k < c.kc) :
    (c.callOf t weights params n).view.byteAt (tap * t.mr + i) k =
      c.windowByte (n * t.mr + i) tap k := by
  rw [mr_callOf] at hi
  have hrow := ConvGeometry.getElem?_tile hn htap (show i < t.mr by omega)
  rw [Nat.min_eq_left (by omega)] at hrow
  rw [IndirectView.byteAt_eq hrow, windowByte]
  cases c.geometry.windowRow (n * t.mr + i) tap with
  | input position => rfl
  | zero =>
    change Bytes.at0 (Array.replicate c.kc c.zeroPoints.input) (0 + k) = _
    rw [Nat.zero_add, Bytes.at0_eq, Array.getElem?_replicate, if_pos hk, Option.getD_some]

theorem outputPosition_pixel (nr i j : ℕ) : outputPosition nr c.nc nr i j = i * c.nc + j := by
  rw [outputPosition, Nat.add_assoc, Nat.div_add_mod']

theorem stridesDisjoint (hnc : 0 < c.nc) (m nr : ℕ) : StridesDisjoint m c.nc nr c.nc nr := by
  refine ⟨Or.inl le_rfl, Or.inl ?_⟩
  rw [Nat.div_add_mod', Nat.sub_add_cancel hnc]

variable (hg : c.geometry.Valid) (hc : c.WellSized) (hv : v ∈ Variant.catalogue)
  (hpack : c.filter.packFresh v.shape c.zeroPoints = .ok weights)
  (hn : n < divideUp c.geometry.outputSize v.shape.mr)

include hg hc hv hpack hn

theorem admits_callOf {size : ℕ}
    (hsize : size = c.geometry.outputSize * c.nc - n * v.shape.mr * c.nc) :
    v.shape.Admits (c.callOf v.shape weights params n) size := by
  have hmr := (Variant.shape_pos hv).1
  have hfirst := mul_lt_of_lt_divideUp hmr hn
  have hpos : 0 < (c.callOf v.shape weights params n).mr := by
    rw [mr_callOf]
    omega
  have hlength : outputLength (c.callOf v.shape weights params n).mr c.nc v.shape.nr c.nc
      v.shape.nr = (c.callOf v.shape weights params n).mr * c.nc := by
    rw [outputLength, if_neg (by have := hc.nc_pos; omega), Nat.add_assoc, Nat.add_assoc,
      ← Nat.add_assoc (_ / _ * _), Nat.div_add_mod', Nat.sub_add_cancel hc.nc_pos, ← Nat.succ_mul,
      Nat.succ_eq_add_one, Nat.sub_add_cancel hpos]
  refine ⟨hpos, Nat.min_le_left .., hc.nc_pos, hc.kc_pos, hg.kernelSize_pos, ?_,
    Filter.packedSize_le_size_pack hpack, ?_⟩
  · exact ConvGeometry.holds_tile hn hc.input Array.size_replicate.ge hc.kc_pos
  · refine hlength.trans_le ?_
    rw [hsize, ← Nat.sub_mul, mr_callOf]
    exact Nat.mul_le_mul_right _ (Nat.min_le_right ..)

/-- The call of a tile finishes the pixels of the tile and leaves those before alone. -/
theorem step_eq_ok (hp : v.derive c.args = .ok params) {host : Capabilities}
    (hhost : host.supports v.isa) {b : Bytes} (hb : b.size = c.geometry.outputSize * c.nc) :
    ∃ b', onSuffix (n * v.shape.mr * c.nc)
        (v.kernel host (c.callOf v.shape weights params n)) b = .ok () b' ∧
      b'.size = b.size ∧ (∀ i < n * v.shape.mr * c.nc, b'[i]? = b[i]?) ∧
      ∀ i < (c.callOf v.shape weights params n).mr, ∀ j < c.nc,
        b'[(n * v.shape.mr + i) * c.nc + j]? = some (v.family.referenceOf c.args
          (c.filter.accumulator c.zeroPoints (c.windowByte (n * v.shape.mr + i)) j)) := by
  have hfirst := mul_lt_of_lt_divideUp (Variant.shape_pos hv).1 hn
  have hstart : n * v.shape.mr * c.nc ≤ b.size := hb ▸ Nat.mul_le_mul_right _ hfirst.le
  have hback : (b.extract (n * v.shape.mr * c.nc) b.size).size =
      c.geometry.outputSize * c.nc - n * v.shape.mr * c.nc := by
    rw [Array.size_extract, Nat.min_self, hb]
  have hadmits : v.shape.Admits (c.callOf v.shape weights params n) _ :=
    admits_callOf hg hc hv hpack hn hback
  have hstrides := stridesDisjoint hc.nc_pos (c.callOf v.shape weights params n).mr v.shape.nr
  have hrun := Variant.kernel_eq_ok hv hhost hp hadmits hstrides.1
  refine ⟨_, onSuffix_eq_ok hrun, ?_, fun i hi ↦ ?_, fun i hi j hj ↦ ?_⟩
  · rw [Array.size_append, Array.size_extract, TileShape.size_paint, Array.size_extract]
    omega
  · rw [getElem?_front_append hstart, if_pos hi]
  · have hpixel : (n * v.shape.mr + i) * c.nc + j = n * v.shape.mr * c.nc + (i * c.nc + j) := by
      ring
    rw [hpixel, getElem?_front_append hstart, if_neg (by omega), Nat.add_sub_cancel_left,
      ← outputPosition_pixel v.shape.nr]
    refine (TileShape.getElem?_paint (Variant.shape_pos hv).2.1 hstrides hi hj
      hadmits.output).trans (congrArg some ?_)
    have hfilter : c.filter.pack v.shape c.zeroPoints _ =
        .ok (c.callOf v.shape weights params n).weights := hpack
    rw [Variant.colour_of_pack hfilter rfl hadmits hc.zeroPoint hi hj,
      Filter.accumulator_congr fun tap htap k hk ↦ byteAt_callOf hn hi htap hk]

end Tile

/-! ## All tiles -/

section Run

variable {v : Variant} {host : Capabilities} {weights : Bytes} {params : Params}

theorem run_eq (hrows : c.geometry.indirection v.shape.mr = .ok (c.geometry.table v.shape.mr))
    (hpack : c.filter.packFresh v.shape c.zeroPoints = .ok weights)
    (hp : v.derive c.args = .ok params) {b : Bytes}
    (hloop : (List.range (divideUp c.geometry.outputSize v.shape.mr)).forM
      (fun n ↦ onSuffix (n * v.shape.mr * c.nc)
        (v.kernel host (c.callOf v.shape weights params n)))
      (Array.replicate (c.geometry.outputSize * c.nc) 0) = .ok () b) :
    c.run v host = .ok b := by
  have htiles : (c.geometry.table v.shape.mr).tileCount =
      divideUp c.geometry.outputSize v.shape.mr := rfl
  have hsize : (c.geometry.table v.shape.mr).outputSize = c.geometry.outputSize := rfl
  unfold callOf at hloop
  simp only [run, hrows, hpack, hp, asRefusal_ok, ok_bind, htiles, hsize, hloop]
  rfl

variable (hg : c.geometry.Valid) (hc : c.WellSized) (hv : v ∈ Variant.catalogue)
  (hhost : host.supports v.isa)
  (hpack : c.filter.packFresh v.shape c.zeroPoints = .ok weights)
  (hp : v.derive c.args = .ok params)

include hg hc hv hhost hpack hp

/-- After the first `count` tiles, their pixels are finished. -/
theorem tiles_eq_ok : ∀ count ≤ divideUp c.geometry.outputSize v.shape.mr,
    ∃ b, (List.range count).forM
        (fun n ↦ onSuffix (n * v.shape.mr * c.nc)
          (v.kernel host (c.callOf v.shape weights params n)))
        (Array.replicate (c.geometry.outputSize * c.nc) 0) = .ok () b ∧
      b.size = c.geometry.outputSize * c.nc ∧
      ∀ pixel < c.geometry.outputSize, pixel < count * v.shape.mr → ∀ j < c.nc,
        b[pixel * c.nc + j]? = some (v.family.referenceOf c.args
          (c.filter.accumulator c.zeroPoints (c.windowByte pixel) j)) := by
  intro count
  induction count with
  | zero =>
    intro _
    refine ⟨_, rfl, Array.size_replicate, fun pixel _ hlt ↦ ?_⟩
    rw [Nat.zero_mul] at hlt
    exact absurd hlt pixel.not_lt_zero
  | succ count ih =>
    intro hcount
    obtain ⟨b, hloop, hsize, hdone⟩ := ih (by omega)
    obtain ⟨b', hstep, hsize', hkeep, hnew⟩ := step_eq_ok hg hc hv hpack hcount hp hhost hsize
    refine ⟨b', (run_forM_range_succ hloop).trans hstep, hsize'.trans hsize, ?_⟩
    intro pixel hpixel hlt j hj
    -- a pixel is in the new tile, or was finished before
    by_cases hbefore : pixel < count * v.shape.mr
    · rw [hkeep _ (block_add_lt hbefore hj)]
      exact hdone pixel hpixel hbefore j hj
    · obtain ⟨i, rfl⟩ := Nat.exists_eq_add_of_le (Nat.not_lt.mp hbefore)
      rw [Nat.succ_mul] at hlt
      refine hnew i ?_ j hj
      rw [mr_callOf]
      omega

end Run

theorem run_writes {v : Variant} {host : Capabilities} {params : Params} (hg : c.geometry.Valid)
    (hc : c.WellSized) (hv : v ∈ Variant.catalogue) (hhost : host.supports v.isa)
    (hp : v.derive c.args = .ok params) :
    ∃ out, c.run v host = .ok out ∧ out.size = c.geometry.outputSize * c.nc ∧
      ∀ pixel < c.geometry.outputSize, ∀ j < c.nc, out[pixel * c.nc + j]? = some
        (v.family.referenceOf c.args
          (c.filter.accumulator c.zeroPoints (c.windowByte pixel) j)) := by
  obtain ⟨hmr, hnr, hkr, hsr⟩ := Variant.shape_pos hv
  obtain ⟨weights, hpack⟩ : ∃ weights, c.filter.packFresh v.shape c.zeroPoints = .ok weights :=
    Filter.exists_pack
      ⟨hnr, hkr, hsr, hc.weights, hc.bias, Array.size_replicate.ge, hc.reduction⟩
      (Variant.fits_of_mem hv _ _)
  have hrows := ConvGeometry.indirection_eq_ok_iff.mpr ⟨hmr, hg, rfl⟩
  obtain ⟨out, hloop, hsize, hdone⟩ := tiles_eq_ok hg hc hv hhost hpack hp _ le_rfl
  refine ⟨out, run_eq hrows hpack hp hloop, hsize, fun pixel hpixel j hj ↦ ?_⟩
  exact hdone pixel hpixel (hpixel.trans_le (le_roundUp hmr)) j hj

/-- **Tiled convolutions are convolutions.** A variant of the catalogue, on a host that runs it,
computes every convolution whose geometry has a table and whose arguments it accepts. It writes its
output stage of the direct accumulators, which is the reference of its strategy, and every other
variant of the strategy writes the same bytes, whatever its tile is. -/
theorem run_eq_direct {v : Variant} (hv : v ∈ Variant.catalogue) {host : Capabilities}
    (hhost : host.supports v.isa) {rows : ConvIndirection}
    (hrows : c.geometry.indirection v.shape.mr = .ok rows) (hc : c.WellSized) {params : Params}
    (hp : v.derive c.args = .ok params) :
    ∃ out, c.run v host = .ok out ∧ out.size = c.geometry.outputSize * c.nc ∧
      (∀ oy < c.geometry.output.height, ∀ ox < c.geometry.output.width, ∀ j < c.nc,
        ∃ y, params.requantize (c.directAccumulator oy ox j) = .ok y ∧
          out[(oy * c.geometry.output.width + ox) * c.nc + j]? = some y) ∧
      (∀ acc, params.requantize acc = .ok (v.reference acc c.args.scale c.args.outputZeroPoint
        c.args.outputMin c.args.outputMax)) ∧
      ∀ v' ∈ Variant.catalogue, v'.strategy = v.strategy → ∀ host' : Capabilities,
        host'.supports v'.isa → c.run v' host' = .ok out := by
  have hg := (ConvGeometry.indirection_eq_ok_iff.mp hrows).2.1
  obtain ⟨out, hrun, hsize, hout⟩ := run_writes hg hc hv hhost hp
  refine ⟨out, hrun, hsize, fun oy hoy ox hox j hj ↦ ⟨_, Family.requantize_of_derive hp _, ?_⟩,
    Family.requantize_of_derive hp, ?_⟩
  · rw [hout _ (block_add_lt hoy hox) j hj, accumulator_windowByte hox]
  · intro v' hv' hstrategy host' hhost'
    obtain ⟨params', hp'⟩ := v'.family.exists_derive
      (Family.maxScale_congr hstrategy ▸ Family.validate_of_derive hp)
    obtain ⟨out', hrun', hsize', hout'⟩ := run_writes hg hc hv' hhost' hp'
    have heq : out' = out := by
      refine Array.ext_getElem? fun i ↦ ?_
      by_cases hi : i < c.geometry.outputSize * c.nc
      · obtain ⟨pixel, hpixel, j, hj, rfl⟩ := exists_block_add hi
        rw [hout pixel hpixel j hj, hout' pixel hpixel j hj, Family.referenceOf,
          Family.referenceOf]
        exact congrArg (fun s : Strategy ↦ some (s.reference _ _ _ _ _)) hstrategy
      · rw [Array.getElem?_eq_none (by omega), Array.getElem?_eq_none (by omega)]
    exact heq ▸ hrun'

/-- Two channels of an image of three by four pixels that lie three bytes apart, with steps,
dilation and padding that differ by direction. -/
def sampleConvolution : Convolution where
  geometry :=
    { input := ⟨3, 4⟩, pixelStride := 3, kernel := ⟨2, 3⟩, subsampling := ⟨2, 1⟩,
      dilation := ⟨1, 2⟩, paddingTop := 1, paddingLeft := 2 }
  nc := 3
  kc := 2
  weights := ((List.range 36).map UInt8.ofNat).toArray
  bias := some #[100, -200, 300]
  zeroPoints := ⟨5, 3⟩
  args := ⟨3, .ofBits 0x3F000000, 100, 10, 250⟩
  input := ((List.range 36).map UInt8.ofNat).toArray
  offset := 1

theorem sampleConvolution_eq_direct : ∃ out,
    sampleConvolution.run (.vector (EightColumn.microkernel 2)) (.x86Host 1) = .ok out ∧
      out.size = 12 ∧
      ∀ oy < 2, ∀ ox < 2, ∀ j < 3, out[(oy * 2 + ox) * 3 + j]? =
        some ((QuantizationArgs.simdParams ⟨3, .ofBits 0x3F000000, 100, 10, 250⟩).requantize
          (sampleConvolution.directAccumulator oy ox j)) := by
  have hgeometry : sampleConvolution.geometry.Valid := ConvGeometry.validate_eq_ok_iff.mp rfl
  have hsizes : sampleConvolution.WellSized :=
    ⟨by decide, by decide, by decide, by decide, by rintro b ⟨⟩; decide, by decide, rfl⟩
  have hv : Variant.vector (EightColumn.microkernel 2) ∈ Variant.catalogue := by
    simp [Variant.catalogue, Variant.vectorVariants]
  have hhost : Capabilities.supports (.x86Host 1) .avx2 := rfl
  obtain ⟨out, hrun, hsize, hout, -⟩ := run_eq_direct (c := sampleConvolution) hv hhost
    (ConvGeometry.indirection_eq_ok_iff.mpr ⟨by decide, hgeometry, rfl⟩) hsizes
    (Family.derive_simd_eq_ok_iff.mpr ⟨by decide +kernel, rfl⟩)
  refine ⟨out, hrun, hsize, fun oy hoy ox hox j hj ↦ ?_⟩
  obtain ⟨y, hy, hbyte⟩ := hout oy hoy ox hox j hj
  exact hbyte.trans (congrArg some (Except.ok.inj hy).symm)

end Convolution

end QuantizedGemm
