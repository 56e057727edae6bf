import QuantizedGemm.Proofs.Convolution.Window

/-!
# The table of a convolution

Which geometries have a table of references, and what it holds.

## Refusals

A table is refused for a size that is zero and for a kernel that does not fit
(`ConvGeometry.Unfit`), and for nothing else. A kernel that fits has as many output rows as there
are positions from which its last tap stays in the padded input (`lt_outputDimension_iff`), and the
same is true of columns. Writing the table cannot fail, since every place that is worked out lies in
it.

## Entries

The entries are counted by tile, tap and row of the tile, where the taps are counted by kernel row
and kernel column. This order is the only thing that the kernels know of a convolution.
-/

namespace QuantizedGemm

/-! ## Output dimensions -/

/-- There is an output position for each step from which the last tap stays in the padded line. -/
theorem lt_outputDimension_iff {padded kernel dilation subsampling o : ℕ} (hs : 0 < subsampling) :
    o < outputDimension padded kernel dilation subsampling ↔
      o * subsampling + (kernel - 1) * dilation < padded := by
  rw [outputDimension]
  split_ifs with hfit
  · omega
  · rw [Nat.lt_succ_iff, Nat.le_div_iff_mul_le hs]
    omega

theorem outputDimension_eq_zero_iff {padded kernel dilation subsampling : ℕ} :
    outputDimension padded kernel dilation subsampling = 0 ↔
      padded < (kernel - 1) * dilation + 1 := by
  rw [outputDimension]
  split_ifs with hfit <;> simp [hfit]

namespace ConvGeometry

variable {g : ConvGeometry} {mr : ℕ}

/-! ## Refusals -/

/-- What a table is refused for: tiles without rows, a size that is zero, or a dilated kernel that
is longer than the padded input in some dimension. -/
def Unfit (g : ConvGeometry) (mr : ℕ) : Prop :=
  mr = 0 ∨ (g.input.height = 0 ∨ g.input.width = 0) ∨ (g.kernel.height = 0 ∨ g.kernel.width = 0) ∨
    (g.subsampling.height = 0 ∨ g.subsampling.width = 0) ∨
    (g.dilation.height = 0 ∨ g.dilation.width = 0) ∨
    g.padded.height < (g.kernel.height - 1) * g.dilation.height + 1 ∨
    g.padded.width < (g.kernel.width - 1) * g.dilation.width + 1

instance : Decidable (g.Unfit mr) := inferInstanceAs (Decidable (_ ∨ _))

theorem outputSize_pos_iff : 0 < g.outputSize ↔
    (g.kernel.height - 1) * g.dilation.height + 1 ≤ g.padded.height ∧
      (g.kernel.width - 1) * g.dilation.width + 1 ≤ g.padded.width := by
  rw [outputSize, Nat.pos_iff_ne_zero, Nat.mul_ne_zero_iff, output, ne_eq, ne_eq,
    outputDimension_eq_zero_iff, outputDimension_eq_zero_iff, Nat.not_lt, Nat.not_lt]

theorem not_unfit_iff : ¬g.Unfit mr ↔ 0 < mr ∧ g.Valid := by
  have hvalid : g.Valid ↔ (∀ p ∈ g.positiveSizes, 0 < p.2) ∧ 0 < g.outputSize :=
    ⟨fun h ↦ ⟨h.sizes, h.outputSize_pos⟩, fun h ↦ ⟨h.1, h.2⟩⟩
  rw [hvalid, outputSize_pos_iff]
  simp only [Unfit, positiveSizes, List.forall_mem_cons, List.not_mem_nil, false_implies,
    implies_true, and_true]
  omega

theorem validate_cases (g : ConvGeometry) :
    (∃ reason, g.validate = .error (geometryError reason)) ∨ g.validate = .ok () := by
  unfold validate
  split
  · exact Or.inl ⟨_, rfl⟩
  · split
    · exact Or.inl ⟨_, rfl⟩
    · exact Or.inr rfl

theorem checkTable_cases (g : ConvGeometry) (mr : ℕ) :
    (∃ reason, g.checkTable mr = .error (geometryError reason)) ∨ g.checkTable mr = .ok () := by
  unfold checkTable
  by_cases hmr : mr = 0
  · exact Or.inl ⟨"mr must be non-zero", by rw [if_pos hmr]; rfl⟩
  · rw [if_neg hmr]
    exact g.validate_cases

theorem indirection_cases (g : ConvGeometry) (mr : ℕ) :
    (∃ reason, g.indirection mr = .error (.refused (geometryError reason))) ∨
      g.indirection mr = .ok (g.table mr) := by
  rcases g.checkTable_cases mr with ⟨reason, hinvalid⟩ | hvalid
  · refine Or.inl ⟨reason, ?_⟩
    rw [indirection, hinvalid]
    rfl
  · obtain ⟨hmr, hvalid⟩ := checkTable_eq_ok_iff.mp hvalid
    exact Or.inr (indirection_eq_ok_iff.mpr ⟨hmr, hvalid, rfl⟩)

theorem indirection_eq_error_iff :
    (∃ reason, g.indirection mr = .error (.refused (geometryError reason))) ↔ g.Unfit mr := by
  constructor
  · rintro ⟨reason, hrefused⟩
    by_contra hfit
    obtain ⟨hmr, hvalid⟩ := not_unfit_iff.mp hfit
    rw [indirection_eq_ok_iff.mpr ⟨hmr, hvalid, rfl⟩] at hrefused
    cases hrefused
  · intro hunfit
    refine (g.indirection_cases mr).resolve_right fun hbuilt ↦ ?_
    obtain ⟨hmr, hvalid, -⟩ := indirection_eq_ok_iff.mp hbuilt
    exact not_unfit_iff.mpr ⟨hmr, hvalid⟩ hunfit

/-! ## Entries -/

/-- The entry of a tile, a tap and a row of the tile, in coordinates of the image. -/
theorem getElem?_table_eq {n r ky kx : ℕ} (hn : n < divideUp g.outputSize mr) (hr : r < mr)
    (hky : ky < g.kernel.height) (hkx : kx < g.kernel.width) {p : ℕ}
    (hp : p = min (n * mr + r) (g.outputSize - 1)) :
    (g.table mr).rows[n * mr * g.kernelSize + (ky * g.kernel.width + kx) * mr + r]? =
      some (if g.Inside (p / g.output.width) (p % g.output.width) ky kx then
        .input (((g.imageRow (p / g.output.width) ky).toNat * g.input.width +
          (g.imageColumn (p % g.output.width) kx).toNat) * g.pixelStride)
      else .zero) := by
  have hsize : 0 < g.outputSize :=
    Nat.zero_lt_of_lt (mul_lt_of_lt_divideUp (Nat.zero_lt_of_lt hr) hn)
  have hwidth : 0 < g.output.width := Nat.pos_of_mul_pos_left hsize
  have hentry := getElem?_table hn (block_add_lt hky hkx) hr
  rw [← hp, ← Nat.div_add_mod' p g.output.width,
    windowRow_eq (Nat.mod_lt p hwidth) hkx] at hentry
  rw [← hentry]
  congr 1
  ring

/-- **The table of a convolution.** It is refused for a geometry that does not fit, and for nothing
else. Otherwise an output row exists if its last tap stays in the padded input, and a column
likewise; there is one entry for each tile, tap and row of a tile; an entry refers to the pixel of
the image under its tap, or to padding, where pixels past the last one repeat it; and every tile is
valid over an input that holds the image. -/
theorem indirection_spec (g : ConvGeometry) (mr : ℕ) :
    ((∃ reason, g.indirection mr = .error (.refused (geometryError reason))) ↔ g.Unfit mr) ∧
    (¬g.Unfit mr → ∃ table, g.indirection mr = .ok table ∧
      (table.mr = mr ∧ table.ks = g.kernel.height * g.kernel.width ∧
        table.outputSize = g.output.height * g.output.width) ∧
      (∀ oy, oy < g.output.height ↔
        oy * g.subsampling.height + (g.kernel.height - 1) * g.dilation.height <
          g.paddingTop + g.input.height + g.paddingBottom) ∧
      (∀ ox, ox < g.output.width ↔
        ox * g.subsampling.width + (g.kernel.width - 1) * g.dilation.width <
          g.paddingLeft + g.input.width + g.paddingRight) ∧
      table.rows.size = table.tileCount * mr * table.ks ∧
      (∀ n < table.tileCount, ∀ r < mr, ∀ ky < g.kernel.height, ∀ kx < g.kernel.width,
        let p := min (n * mr + r) (table.outputSize - 1)
        let oy := p / g.output.width
        let ox := p % g.output.width
        table.rows[n * mr * table.ks + (ky * g.kernel.width + kx) * mr + r]? =
          some (if g.Inside oy ox ky kx then
            .input (((g.imageRow oy ky).toNat * g.input.width + (g.imageColumn ox kx).toNat) *
              g.pixelStride)
          else .zero)) ∧
      ∀ n < table.tileCount, ∀ (input zero : Bytes) (offset kc : ℕ),
        offset + (g.input.height * g.input.width - 1) * g.pixelStride + kc ≤ input.size →
        kc ≤ zero.size →
        (IndirectView.mk (table.tile n) input zero offset).validate mr table.ks kc = .ok ()) := by
  refine ⟨indirection_eq_error_iff, fun hfit ↦ ?_⟩
  obtain ⟨hmr, hvalid⟩ := not_unfit_iff.mp hfit
  have hheight : 0 < g.subsampling.height :=
    hvalid.sizes ("subsampling height", _) (by simp [positiveSizes])
  have hwidth : 0 < g.subsampling.width :=
    hvalid.sizes ("subsampling width", _) (by simp [positiveSizes])
  refine ⟨g.table mr, indirection_eq_ok_iff.mpr ⟨hmr, hvalid, rfl⟩, ⟨rfl, rfl, rfl⟩,
    fun oy ↦ lt_outputDimension_iff hheight, fun ox ↦ lt_outputDimension_iff hwidth, ?_,
    fun n hn r hr ky hky kx hkx ↦ getElem?_table_eq hn hr hky hkx rfl,
    fun n hn input zero offset kc ↦ validate_tile hn⟩
  rw [size_table, ← Nat.mul_assoc, Nat.mul_right_comm]
  rfl

/-- An image of three rows and four columns, with other steps and paddings for rows than for
columns. The output has two rows and three columns. -/
def sampleWindows : ConvGeometry where
  input := ⟨3, 4⟩
  pixelStride := 5
  kernel := ⟨2, 3⟩
  subsampling := ⟨2, 1⟩
  dilation := ⟨1, 2⟩
  paddingTop := 1
  paddingRight := 1
  paddingLeft := 2

/-- The first pixel has its upper taps in the padding; the second tile repeats the last pixel. -/
theorem sampleWindows_table : ∃ table, sampleWindows.indirection 4 = .ok table ∧
    table.rows.size = 48 ∧ table.rows[0]? = some .zero ∧ table.rows[43]? = some (.input 50) ∧
    (IndirectView.mk (table.tile 1) (Array.replicate 60 0) #[0, 0, 0] 2).validate 4 6 3 =
      .ok () := by
  obtain ⟨table, hbuilt, -, -, -, hsize, hentry, hvalid⟩ :=
    (indirection_spec sampleWindows 4).2 (by decide)
  obtain ⟨-, -, rfl⟩ := indirection_eq_ok_iff.mp hbuilt
  exact ⟨_, hbuilt, hsize, hentry 0 (by decide) 0 (by decide) 0 (by decide) 0 (by decide),
    hentry 1 (by decide) 3 (by decide) 1 (by decide) 1 (by decide),
    hvalid 1 (by decide) _ _ 2 3 (by decide) (by decide)⟩

end ConvGeometry

end QuantizedGemm
