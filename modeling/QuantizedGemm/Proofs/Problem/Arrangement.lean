import Mathlib.Data.List.Count
import QuantizedGemm.Proofs.Problem
import QuantizedGemm.Random.ChaCha

/-!
# How a problem is arranged

The references of a problem start out as the starts of the rows, once for each tap, in the order
that was drawn. Two replacements follow: spare rows for all that lies past the problem, and padding
for one row of every tap. Where both apply the row is spare. `Arranged` lists what holds in the end,
entry by entry, together with the arena and the accumulators.

## Accumulators

The accumulators are computed from the plain operands, with the offset added by hand. That they are
those of the bytes which a kernel gets to see through the view is `accumulator_eq`; here the sum is
spelled out, and only the bias is left of it in a row of padding.

## Where generating ends

Drawing operands is one thing, and packing them is another. From every state in which the drawing
ends, a valid test case gets its operands; whether it gets a problem depends on the weights that
were drawn, if groups are long (`generate_arranged`). The last section has a test case and a source
for which the packing overflows.
-/

namespace QuantizedGemm

/-- Replacing items by others does not add to the occurrences of an item that is only ever put in
its own place. -/
theorem count_mapIdx_le {α : Type} [DecidableEq α] {x : α} (l : List α) {f : ℕ → α → α}
    (h : ∀ i a, f i a = x → a = x) : (l.mapIdx f).count x ≤ l.count x := by
  induction l generalizing f with
  | nil => simp
  | cons a l ih =>
    have htail := ih fun i b hb ↦ h (i + 1) b hb
    rw [List.mapIdx_cons, List.count_cons, List.count_cons]
    refine Nat.add_le_add htail ?_
    by_cases hx : f 0 a = x
    · rw [hx, h 0 a hx]
    · simp [hx]

namespace Problem

open Draw Finset

/-- What holds of a problem that a test case makes of its operands. -/
structure Arranged (t : TestCase) (o : Operands) (p : Problem) : Prop where
  /-- The references are drawn as a permutation of all starts, once for each tap. -/
  fits : o.Fits t.shape.mr t.n t.k t.ks
  rows : p.view.rows = assignRows t o.order
  size_rows : p.view.rows.size = t.ks * t.shape.mr
  /-- Rows past the problem are spare. -/
  spare : ∀ tap < t.ks, ∀ i < t.shape.mr, t.m ≤ i →
    p.view.rows[tap * t.shape.mr + i]? = some (.input (t.shape.mr * t.k))
  /-- The padding row is the same in every tap. -/
  padding : ∀ tap < t.ks, ∀ z < t.m, t.zeroIndex = some z →
    p.view.rows[tap * t.shape.mr + z]? = some .zero
  /-- All other rows start where it was drawn for them. -/
  start : ∀ tap < t.ks, ∀ i < t.m, t.zeroIndex ≠ some i → ∃ row < t.shape.mr,
    o.order[tap * t.shape.mr + i]? = some (.input (row * t.k)) ∧
      p.view.rows[tap * t.shape.mr + i]? = some (.input (row * t.k))
  /-- No start is used more often than there are taps. -/
  count_le : ∀ row < t.shape.mr, p.view.rows.count (.input (row * t.k)) ≤ t.ks
  input : p.view.input =
    Array.replicate t.aOffset fillByte ++ o.activations ++ Array.replicate t.k fillByte
  readable : p.view.validate t.shape.mr t.ks t.k = .ok ()
  /-- So there are bytes for all that the accumulators are computed from. -/
  holds : p.view.Holds (t.shape.mr * t.ks) t.k
  weights : p.weights = o.weights
  bias : p.bias = o.bias
  size_accumulators : p.accumulators.size = t.m * t.n
  accumulator : ∀ i < t.m, ∀ j < t.n, p.accumulators[i * t.n + j]? = some (Int32.ofInt
    ((p.bias.getD j 0).toInt + ∑ tap ∈ range t.ks, ∑ kk ∈ range t.k,
      ((p.view.byteAt (tap * t.shape.mr + i) kk).toNat - t.aZeroPoint.toNat : ℤ) *
        ((p.weights.at0 ((j * t.ks + tap) * t.k + kk)).toNat - t.bZeroPoint.toNat)))
  accumulator_padding : ∀ z < t.m, t.zeroIndex = some z → ∀ j < t.n,
    p.accumulators[z * t.n + j]? = p.bias[j]?

/-! ## References -/

theorem count_references {mr k row : ℕ} (hk : 0 < k) (hrow : row < mr) (ks : ℕ) :
    (references mr k ks).count (.input (row * k)) = ks := by
  have hinjective : Function.Injective fun row : ℕ ↦ IndirectRow.input (row * k) := by
    intro a b hab
    exact Nat.eq_of_mul_eq_mul_right hk (IndirectRow.input.inj hab)
  have hblock : ((List.range mr).map fun row ↦ IndirectRow.input (row * k)).count
      (.input (row * k)) = 1 := by
    rw [List.count_map_of_injective _ _ hinjective]
    exact List.count_eq_one_of_mem List.nodup_range (List.mem_range.mpr hrow)
  rw [references, List.count_flatMap]
  simp [Function.comp_def, hblock]

section References

variable {t : TestCase} {o : Operands} (h : t.Valid) (ho : o.Fits t.shape.mr t.n t.k t.ks)

include ho in
@[simp] theorem size_order : o.order.size = t.ks * t.shape.mr := by
  rw [ho.order.size_eq, ← orderedRows_eq, size_orderedRows]

include ho in
theorem getElem?_rows {tap i : ℕ} (htap : tap < t.ks) (hi : i < t.shape.mr) :
    ∃ r, o.order[tap * t.shape.mr + i]? = some r ∧
      (assignRows t o.order)[tap * t.shape.mr + i]? = some (assignedRow t i r) := by
  have hlt : tap * t.shape.mr + i < o.order.size := size_order ho ▸ block_add_lt htap hi
  refine ⟨_, Array.getElem?_eq_getElem hlt, ?_⟩
  rw [assignRows, Array.getElem?_mapIdx, Array.getElem?_eq_getElem hlt, Option.map_some,
    block_add_mod hi]

include h ho in
theorem count_rows_le {row : ℕ} (hrow : row < t.shape.mr) :
    (assignRows t o.order).count (.input (row * t.k)) ≤ t.ks := by
  have hkeep : ∀ i r, assignedRow t (i % t.shape.mr) r = .input (row * t.k) →
      r = .input (row * t.k) := by
    intro i r heq
    unfold assignedRow at heq
    split_ifs at heq with hspare
    · -- the spare row does not start where one of the rows does
      have hstart := Nat.eq_of_mul_eq_mul_right h.k_pos (IndirectRow.input.inj heq)
      omega
    · exact heq
  calc (assignRows t o.order).count (.input (row * t.k))
      = (o.order.toList.mapIdx fun i r ↦ assignedRow t (i % t.shape.mr) r).count
          (.input (row * t.k)) := by
        rw [← Array.count_toList, assignRows, Array.toList_mapIdx]
    _ ≤ o.order.toList.count (.input (row * t.k)) := count_mapIdx_le _ hkeep
    _ = t.ks := by
        rw [(Array.perm_iff_toList_perm.mp ho.order).count_eq, count_references h.k_pos hrow]

/-! ## The arrangement -/

include h ho in
/-- Every term of a row of padding is zero. -/
theorem accumulator_eq_bias {weights : Bytes} {i j : ℕ} (hi : i < t.m)
    (hzero : t.zeroIndex = some i) :
    accumulator t (arena t o.activations) (assignRows t o.order) weights o.bias i j =
      o.bias.getD j 0 := by
  have hterm : ∀ tap < t.ks, ∀ k < t.k,
      term t (arena t o.activations) (assignRows t o.order) weights i j tap k = Int32.ofInt 0 := by
    intro tap htap k _
    obtain ⟨r, -, hr⟩ := getElem?_rows ho htap (hi.trans_le h.m_le)
    rw [assignedRow, if_neg (Nat.not_le.mpr hi), if_pos hzero] at hr
    rw [term, Array.getD_eq_getD_getElem?, hr, Option.getD_some, activation]
    simp
  rw [accumulator,
    sumBelow_eq_ofInt fun tap htap ↦ sumBelow_eq_ofInt fun k hk ↦ hterm tap htap k hk]
  simp

include h ho in
theorem arranged_problem (packed : Bytes) : Arranged t o (o.problem t packed) := by
  have horder : o.order.Perm (orderedRows t) := orderedRows_eq t ▸ ho.order
  constructor
  case fits => exact ho
  case rows => rfl
  case size_rows => exact Array.size_mapIdx.trans (size_order ho)
  case spare =>
    intro tap htap i hi hspare
    obtain ⟨r, -, hr⟩ := getElem?_rows ho htap hi
    rwa [assignedRow, if_pos hspare] at hr
  case padding =>
    intro tap htap z hz hzero
    obtain ⟨r, -, hr⟩ := getElem?_rows ho htap (hz.trans_le h.m_le)
    rwa [assignedRow, if_neg (Nat.not_le.mpr hz), if_pos hzero] at hr
  case start =>
    intro tap htap i hi hzero
    obtain ⟨r, hdrawn, hr⟩ := getElem?_rows ho htap (hi.trans_le h.m_le)
    rw [assignedRow, if_neg (Nat.not_le.mpr hi), if_neg hzero] at hr
    obtain ⟨row, hrow, rfl⟩ :=
      mem_orderedRows h.mr_pos (horder.mem_iff.mp (Array.mem_of_getElem? hdrawn))
    exact ⟨row, hrow, hdrawn, hr⟩
  case count_le => exact fun row hrow ↦ count_rows_le h ho hrow
  case input => rfl
  case readable =>
    exact (IndirectView.validate_eq_ok_iff h.k_pos).mpr (holds_viewOf h ho.activations horder)
  case holds => exact holds_viewOf h ho.activations horder
  case weights => rfl
  case bias => rfl
  case size_accumulators =>
    exact List.size_toArray.trans (List.length_flatMap_range fun _ _ ↦ by simp)
  case accumulator =>
    intro i hi j hj
    refine (getElem?_accumulatorsOf hi hj).trans (congrArg some ?_)
    have hbias : (Filter.mk t.filterShape o.weights (some o.bias)).biasAt j = o.bias.getD j 0 :=
      if_pos hj
    rw [accumulator_eq h horder hi hj, Filter.accumulator, hbias]
    rfl
  case accumulator_padding =>
    intro z hz hzero j hj
    have hlt : j < o.bias.size := hj.trans_eq ho.bias.symm
    refine (getElem?_accumulatorsOf hz hj).trans ?_
    rw [accumulator_eq_bias h ho hz hzero, Array.getD_eq_getD_getElem?]
    change _ = o.bias[j]?
    rw [Array.getElem?_eq_getElem hlt, Option.getD_some]

end References

/-- Two rows of a tile of three, the second of them padding. -/
def sampleArranged : TestCase where
  shape := ⟨3, 4, 2, 1⟩
  m := 2
  n := 4
  k := 5
  ks := 2
  aOffset := 7
  zeroIndex := some 1

/-- A source that repeats one word. -/
structure Repeated where
  word : UInt32

instance : WordSource Repeated where
  next s := (s.word, s)

/-- Three high bytes and a low one, over and over. -/
def stripes (count : ℕ) : Bytes :=
  (((List.range (divideUp count 4)).flatMap fun _ ↦ [255, 255, 255, 0]).take count).toArray

theorem getElem?_stripes {count block r : ℕ} (h : block * 4 + r < count) (hr : r < 4) :
    (stripes count)[block * 4 + r]? = ([255, 255, 255, 0] : List UInt8)[r]? := by
  have hblock : block < divideUp count 4 := by
    rw [divideUp]
    omega
  rw [stripes, List.getElem?_toArray, List.getElem?_take_of_lt h]
  exact List.getElem?_flatMap_range (fun _ _ ↦ rfl) hblock hr

theorem isVaried_stripes {count : ℕ} (h : 4 ≤ count) : isVaried (stripes count) = true := by
  have hplace : ∀ r < 4, (stripes count)[0 * 4 + r]? = ([255, 255, 255, 0] : List UInt8)[r]? :=
    fun r hr ↦ getElem?_stripes (by omega) hr
  have hfirst : (stripes count)[0]? = some 255 := hplace 0 (by decide)
  have hlast : (stripes count)[3]? = some 0 := hplace 3 (by decide)
  obtain ⟨hlt, hbyte⟩ := Array.getElem?_eq_some_iff.mp hlast
  rw [isVaried, Array.any_eq_true, Bytes.at0_eq_of_getElem? hfirst]
  exact ⟨3, hlt, by rw [hbyte]; rfl⟩

theorem run_drawVaried_stripes {count : ℕ} (h : 4 ≤ count) :
    (drawVaried 1 count).run (⟨0x00FFFFFF⟩ : Repeated) = .ok (stripes count, ⟨0x00FFFFFF⟩) := by
  have hwords : ∀ (l : List ℕ) (s : Repeated),
      (l.mapM fun _ ↦ (drawWord : Draw Repeated UInt32)).run s = .ok (l.map fun _ ↦ s.word, s) := by
    intro l s
    induction l with
    | nil => rfl
    | cons a l ih =>
      rw [List.mapM_cons, run_bind_eq_ok_iff]
      refine ⟨s.word, s, rfl, run_bind_eq_ok_iff.mpr ⟨_, s, ih, rfl⟩⟩
  have hbytes : (drawBytes count).run (⟨0x00FFFFFF⟩ : Repeated) =
      .ok (stripes count, ⟨0x00FFFFFF⟩) := by
    refine run_bind_eq_ok_iff.mpr ⟨_, _, hwords _ _, ?_⟩
    rw [List.flatMap_map]
    rfl
  refine run_bind_eq_ok_iff.mpr ⟨_, _, hbytes, ?_⟩
  rw [isVaried_stripes h, Bool.or_true]
  rfl

theorem exists_draw_stripes {k : ℕ} (h : 4 ≤ k) : ∃ o s',
    (Operands.draw 1 1 1 k 1).run (⟨0x00FFFFFF⟩ : Repeated) = .ok (o, s') ∧
      o.Fits 1 1 k 1 ∧ o.weights = stripes k := by
  obtain ⟨⟨bias, s'⟩, hbias⟩ : ∃ r, ((List.range 1).mapM fun _ ↦ drawBias).run
      (⟨0x00FFFFFF⟩ : Repeated) = .ok r := exists_eq_ok (by decide +kernel)
  have hdraw : (Operands.draw 1 1 1 k 1).run (⟨0x00FFFFFF⟩ : Repeated) =
      .ok (⟨stripes (1 * k), (references 1 k 1).toArray, stripes (1 * 1 * k), bias.toArray⟩,
        s') := by
    refine run_bind_eq_ok_iff.mpr ⟨_, _, run_drawVaried_stripes (by omega), ?_⟩
    refine run_bind_eq_ok_iff.mpr ⟨_, _, rfl, ?_⟩
    refine run_bind_eq_ok_iff.mpr ⟨_, _, run_drawVaried_stripes (by omega), ?_⟩
    exact run_bind_eq_ok_iff.mpr ⟨_, _, hbias, rfl⟩
  refine ⟨_, _, hdraw, (Operands.yields_draw 1 1 1 k 1).of_run_eq_ok hdraw, ?_⟩
  exact congrArg stripes (by omega)

/-- One output, whose reduction is a single group. -/
def longGroup : TestCase where
  shape := ⟨1, 1, 48000, 1⟩
  k := 48000
  aZeroPoint := 255

/-- The weights of the group add up to three quarters of the greatest possible sum. -/
theorem groupWeight_stripes (o : Operands) (h : o.weights = stripes 48000) :
    (o.filter longGroup).groupWeight longGroup.shape 0 0 0 0 = 9180000 := by
  have hlane : ∀ block ∈ range 12000, ∀ r ∈ range 4,
      (o.filter longGroup).laneWeight longGroup.shape 0 0 0 0 (block * 4 + r) =
        (([255, 255, 255, 0] : List UInt8).getD r 0).toNat := by
    intro block hblock r hr
    rw [mem_range] at hblock hr
    have hlt : block * 4 + r < 48000 := by omega
    have hindex : longGroup.shape.reductionIndex 0 0 (block * 4 + r) = block * 4 + r := by
      simp [TileShape.reductionIndex, TileShape.kBlock, longGroup, roundDown, Nat.mod_eq_of_lt hlt]
    rw [Filter.laneWeight, Filter.placed_eq, hindex, if_pos ⟨Nat.one_pos, hlt⟩]
    change (o.weights.at0 ((0 * 1 + 0) * 48000 + (block * 4 + r))).toNat = _
    rw [Nat.zero_mul, Nat.zero_add, h, Bytes.at0_eq, getElem?_stripes hlt hr,
      List.getD_eq_getElem?_getD]
  calc ∑ lane ∈ range 48000, (o.filter longGroup).laneWeight longGroup.shape 0 0 0 0 lane
      = ∑ block ∈ range 12000, ∑ r ∈ range 4,
          (([255, 255, 255, 0] : List UInt8).getD r 0).toNat := by
        rw [← sum_range_blocks 12000 4]
        exact sum_congr rfl fun block hblock ↦ sum_congr rfl fun r hr ↦ hlane block hblock r hr
    _ = 12000 * 765 := by rw [sum_const, card_range, smul_eq_mul]; rfl

/-- The share of the group is larger than any integer of 32 bits. -/
theorem run_generate_longGroup :
    (generate 1 longGroup).run (⟨0x00FFFFFF⟩ : Repeated) = .error (.fault .overflow) := by
  have h : longGroup.Valid := TestCase.validate_eq_ok_iff.mp (by decide +kernel)
  obtain ⟨o, s', hdraw, ho, hweights⟩ := exists_draw_stripes (k := longGroup.k) (by decide)
  refine run_generate_of_pack_error h hdraw
    (Operands.pack_eq_overflow h ho (by decide) fun hfits ↦ ?_)
  have htile : 0 < longGroup.shape.columnTiles longGroup.n := by decide
  have hstep : 0 < longGroup.shape.steps longGroup.k := by decide
  have hgroup := (hfits 0 htile 0 Nat.one_pos 0 Nat.one_pos 0 hstep).2
  rw [groupWeight_stripes o hweights] at hgroup
  exact absurd hgroup (by decide)

end Problem

end QuantizedGemm
