import QuantizedGemm.Proofs.Kernel.Vector
import QuantizedGemm.Proofs.Quantization.FixedPointStage

/-!
# The catalogue as one kernel

Portable and vector kernels compute different things in different ways. What they have in common is
all that their users need, and is collected in one statement here (`Variant.Implements`), which
every variant of the catalogue satisfies (`Variant.exists_implements`). Nothing past this file tells
portable and vector kernels apart.

## Output stages

Which stage a variant applies follows from the parameters alone (`Params.requantize`). Parameters
that a family derives from arguments make the stage the family's reference
(`Family.requantize_of_derive`), for every scale that the family accepts. In particular such a stage
has an output for every accumulator, while a stage of made-up parameters may overflow.

## Outputs

The colour of an output (`Variant.colour`) is the reference of the variant, applied to the
accumulator of its tile. A kernel that is called with parameters of its own paints these colours
(`Variant.kernel_eq_ok`), and for packed weights the accumulators are those of the filter
(`Variant.colour_of_pack`).
-/

namespace QuantizedGemm

/-! ## Output stages of all families -/

/-- The output byte of an accumulator, by the stage of the family that the parameters belong to. -/
def Params.requantize : Params → Int32 → Except Fault UInt8
  | .fmagic p => p.requantize
  | .imagic p => p.requantize
  | .lrintf p => p.requantize
  | .simd p => p.stage
  | .rndnu p => p.requantize

/-- What the reference of a family makes of an accumulator. -/
def Family.referenceOf (f : Family) (a : QuantizationArgs) (acc : Int32) : UInt8 :=
  f.strategy.reference acc a.scale a.outputZeroPoint a.outputMin a.outputMax

variable {a : QuantizationArgs}

theorem Family.maxScale_congr {f f' : Family} (h : f'.strategy = f.strategy) :
    f'.maxScale = f.maxScale := by
  have hstrategy : ∀ f : Family, f.maxScale = if f.strategy = .rndnu then
      QuantizationArgs.maxFixedScale else QuantizationArgs.maxFloatScale := by
    intro f
    cases f <;> rfl
  rw [hstrategy, hstrategy, h]

/-- The stage of derived parameters is the reference of their family. -/
theorem Family.requantize_of_derive {f : Family} {params : Params} (h : f.derive a = .ok params)
    (acc : Int32) : params.requantize acc = .ok (f.referenceOf a acc) := by
  obtain ⟨hvalid, rfl⟩ := derive_eq_ok_iff.mp h
  cases f with
  | fmagic => exact fmagicParams_requantize a acc
  | imagic => exact imagicParams_requantize hvalid acc
  | lrintf => exact lrintfParams_requantize a acc
  | simd => exact congrArg Except.ok (simdParams_requantize hvalid acc)
  | rndnu => exact rndnuParams_requantize hvalid acc

/-- A type of parameters that recognises those of its family. -/
class LawfulFamily (π : Type) [ParamsFamily π] : Prop where
  isSome_extract (p : Params) : (ParamsFamily.extract p : Option π).isSome =
    decide (p.family = ParamsFamily.family π)

instance : LawfulFamily FmagicParams where
  isSome_extract p := by cases p <;> rfl

instance : LawfulFamily ImagicParams where
  isSome_extract p := by cases p <;> rfl

instance : LawfulFamily LrintfParams where
  isSome_extract p := by cases p <;> rfl

instance : LawfulFamily SimdParams where
  isSome_extract p := by cases p <;> rfl

instance : LawfulFamily RndnuParams where
  isSome_extract p := by cases p <;> rfl

section Get

variable {π : Type} [ParamsFamily π] [LawfulFamily π] {p : Params}

theorem Params.exists_get (h : p.family = ParamsFamily.family π) : ∃ q : π, p.get π = .ok q := by
  have hsome := (LawfulFamily.isSome_extract p).trans (decide_eq_true h)
  obtain ⟨q, hq⟩ := Option.isSome_iff_exists.mp hsome
  exact ⟨q, by rw [get, hq]⟩

theorem Params.get_of_family_ne (h : p.family ≠ ParamsFamily.family π) :
    p.get π = .error (familyMismatch (ParamsFamily.family π) p.family) := by
  have hsome := (LawfulFamily.isSome_extract p).trans (decide_eq_false h)
  rw [get, Option.isNone_iff_eq_none.mp (Option.isSome_eq_false_iff.mp hsome)]

end Get

/-- An output stage whose only fault is an overflow, and that finds its own parameters among the
derived ones. -/
class LawfulStage (π : Type) [OutputStage π] : Prop extends LawfulFamily π where
  onlyOverflows_requantize (q : π) (acc : Int32) : OnlyOverflows (OutputStage.requantize q acc)
  get_of_derive {a : QuantizationArgs} {params : Params} :
    (ParamsFamily.family π).derive a = .ok params → ∃ q : π, params.get π = .ok q ∧
      OutputStage.kernelZeroPoint q = byteToInt32 a.kernelZeroPoint ∧
      OutputStage.requantize q = params.requantize

instance : LawfulStage FmagicParams where
  onlyOverflows_requantize _ _ := (onlyOverflows_checkedSub _ _).bind fun _ ↦ onlyOverflows_ok _
  get_of_derive {a _} h := by
    obtain ⟨-, rfl⟩ := Family.derive_eq_ok_iff.mp h
    exact ⟨a.fmagicParams, rfl, rfl, rfl⟩

instance : LawfulStage ImagicParams where
  onlyOverflows_requantize _ _ := (onlyOverflows_checkedSub _ _).bind fun _ ↦ onlyOverflows_ok _
  get_of_derive {a _} h := by
    obtain ⟨-, rfl⟩ := Family.derive_eq_ok_iff.mp h
    exact ⟨a.imagicParams, rfl, rfl, rfl⟩

instance : LawfulStage LrintfParams where
  onlyOverflows_requantize _ _ := (onlyOverflows_checkedAdd _ _).bind fun _ ↦ onlyOverflows_ok _
  get_of_derive {a _} h := by
    obtain ⟨-, rfl⟩ := Family.derive_eq_ok_iff.mp h
    exact ⟨a.lrintfParams, rfl, rfl, rfl⟩

instance : LawfulStage RndnuParams where
  onlyOverflows_requantize _ _ :=
    (onlyOverflows_checkedMul64 _ _).bind fun _ ↦ (onlyOverflows_checkedAdd64 _ _).bind fun _ ↦
      (onlyOverflows_checkedShiftRight64 _ _).bind fun _ ↦ (onlyOverflows_checkedAdd _ _).bind
        fun _ ↦ onlyOverflows_ok _
  get_of_derive {a _} h := by
    obtain ⟨-, rfl⟩ := Family.derive_eq_ok_iff.mp h
    exact ⟨a.rndnuParams, rfl, rfl, rfl⟩

/-! ## Faults of a tile -/

theorem Portable.onlyOverflows_compute {t : TileShape} (hkr : 0 < t.kr) (hsr : 0 < t.sr) {π : Type}
    [OutputStage π] [LawfulStage π] (p : π) {o : TileOperands} (ho : o.Complete t) :
    OnlyOverflows ((microkernel t π).compute p o) := by
  intro fault hfault
  obtain ⟨i, hi, hrow⟩ := exists_of_tabulate_eq_error hfault
  obtain ⟨j, hj, hlane⟩ := exists_of_tabulate_eq_error hrow
  rcases bind_eq_error_iff.mp hlane with hacc | ⟨acc, -, hstage⟩
  · exact ((unlessOverflow_accumulator hkr hsr ho hi hj).of_error hacc).2
  · exact LawfulStage.onlyOverflows_requantize p acc fault hstage

/-- A computation that any parameters are sound for has no faults at all. -/
theorem Microkernel.AccumulatesLanes.onlyOverflows_compute {k : Microkernel SimdParams}
    (hk : k.AccumulatesLanes) (p : SimdParams) {o : TileOperands} (ho : o.Complete k.shape) :
    OnlyOverflows (k.compute p o) := by
  obtain ⟨out, hout⟩ := hk.exists_out (p := p) ho trivial
  exact hout ▸ onlyOverflows_ok out

/-! ## Variants -/

namespace Variant

theorem shape_pos {v : Variant} (hv : v ∈ catalogue) :
    0 < v.shape.mr ∧ 0 < v.shape.nr ∧ 0 < v.shape.kr ∧ 0 < v.shape.sr := by
  revert v
  decide

/-- Groups of the catalogue are short, so that packing for them never overflows. -/
theorem kr_le {v : Variant} (hv : v ∈ catalogue) : v.shape.kr ≤ 8 := by
  revert v
  decide

theorem fits_of_mem {v : Variant} (hv : v ∈ catalogue) (f : Filter) (zp : ZeroPoints) :
    f.Fits v.shape zp := by
  have hkr := kr_le hv
  exact Filter.fits_of_kr_lt (by omega)

/-- A variant is the kernel of a computation of accumulators, with parameters of its family. On
complete operands the computation stays in bounds. It arrives at a tile for all parameters of a
vector kernel, and for derived ones in any case, and then its stage is the one of the parameters. -/
structure Implements (v : Variant) {π : Type} [ParamsFamily π] (k : Microkernel π)
    (value : π → UInt8 → Int32) (stage : π → Int32 → Except Fault UInt8) (sound : π → Prop) :
    Prop where
  isa_eq : v.isa = k.isa
  shape_eq : v.shape = k.shape
  family_eq : v.family = ParamsFamily.family π
  kernel_eq : v.kernel = k.kernel
  accumulates : k.Accumulates value stage sound
  onlyOverflows (p : π) {o : TileOperands} (ho : o.Complete k.shape) :
    OnlyOverflows (k.compute p o)
  sound_of_isa (h : v.isa ≠ .scalar) (p : π) : sound p
  derived {a : QuantizationArgs} {params : Params} (h : v.derive a = .ok params) :
    ∃ p : π, params.get π = .ok p ∧ sound p ∧
      value p = Portable.lessZero (byteToInt32 a.kernelZeroPoint) ∧
      stage p = params.requantize

theorem implements_portable {t : TileShape} (hkr : 0 < t.kr) (hsr : 0 < t.sr) (π : Type)
    [OutputStage π] [LawfulStage π] : (portable π t).Implements (Portable.microkernel t π)
      (fun p ↦ Portable.lessZero (OutputStage.kernelZeroPoint p)) OutputStage.requantize
      OutputStage.Sound where
  isa_eq := rfl
  shape_eq := rfl
  family_eq := rfl
  kernel_eq := rfl
  accumulates := Portable.microkernel_accumulates hkr hsr π
  onlyOverflows p _ ho := Portable.onlyOverflows_compute hkr hsr p ho
  sound_of_isa h _ := absurd rfl h
  derived {a params} h := by
    obtain ⟨q, hget, hzero, hstage⟩ := LawfulStage.get_of_derive h
    have hout : ∀ acc, OutputStage.requantize q acc = .ok (Family.referenceOf _ a acc) :=
      fun acc ↦ (congrFun hstage acc).trans (Family.requantize_of_derive h acc)
    exact ⟨q, hget, ⟨⟨_, hzero⟩, fun acc ↦ ⟨_, hout acc⟩⟩, by rw [hzero], hstage⟩

theorem implements_vector {k : Microkernel SimdParams} (hk : k.AccumulatesLanes) :
    (vector k).Implements k SimdParams.weightValue SimdParams.stage fun _ ↦ True where
  isa_eq := rfl
  shape_eq := rfl
  family_eq := rfl
  kernel_eq := rfl
  accumulates := hk
  onlyOverflows p _ ho := hk.onlyOverflows_compute p ho
  sound_of_isa _ _ := trivial
  derived {a params} h := by
    obtain ⟨-, rfl⟩ := Family.derive_simd_eq_ok_iff.mp h
    exact ⟨a.simdParams, rfl, trivial, SimdParams.weightValue_eq rfl, rfl⟩

/-- All variants of the catalogue are such kernels. -/
theorem exists_implements {v : Variant} (hv : v ∈ catalogue) :
    ∃ (π : Type) (_ : ParamsFamily π) (_ : LawfulFamily π) (k : Microkernel π)
      (value : π → UInt8 → Int32) (stage : π → Int32 → Except Fault UInt8) (sound : π → Prop),
      v.Implements k value stage sound := by
  obtain ⟨-, -, hkr, hsr⟩ := shape_pos hv
  rcases List.mem_append.mp hv with hv | hv
  · obtain ⟨k, hk, rfl⟩ := exists_vector hv
    exact ⟨_, _, inferInstance, k, _, _, _, implements_vector hk⟩
  · simp only [portableVariants, List.mem_append, List.mem_map] at hv
    obtain ((((⟨t, -, rfl⟩ | ⟨t, -, rfl⟩) | ⟨t, -, rfl⟩) | ⟨t, -, rfl⟩) | ⟨t, -, rfl⟩) := hv
    all_goals exact ⟨_, _, inferInstance, _, _, _, _, implements_portable hkr hsr _⟩

/-! ## Runs -/

/-- The output of a call in row `i` and column `j`. -/
def colour (v : Variant) (a : QuantizationArgs) (call : Call) (i j : ℕ) : UInt8 :=
  v.family.referenceOf a (Portable.valuedAccumulator v.shape
    (call.operands v.shape (j / v.shape.nr))
    (Portable.lessZero (byteToInt32 a.kernelZeroPoint)) i (j % v.shape.nr))

section Run

variable {host : Capabilities} {call : Call} {c : Bytes}

theorem kernel_eq_ok {v : Variant} (hv : v ∈ catalogue) (hhost : host.supports v.isa)
    (hp : v.derive a = .ok call.params) (h : v.shape.Admits call c.size)
    (hcols : v.shape.nr ≤ call.cnStride ∨ call.nc ≤ v.shape.nr) :
    v.kernel host call c = .ok () (v.shape.paint call (v.colour a call) c) := by
  have hnr := (shape_pos hv).2.1
  obtain ⟨π, _, _, k, value, stage, sound, hk⟩ := exists_implements hv
  obtain ⟨p, hget, hsound, hvalue, hstage⟩ := hk.derived hp
  rw [hk.kernel_eq]
  rw [hk.isa_eq] at hhost
  rw [hk.shape_eq] at h hcols hnr ⊢
  have hcomputes := hk.accumulates.computes_of_sound h hsound
  refine (Microkernel.kernel_eq_ok hget hhost h hcomputes hcols).trans
    (congrArg (EStateM.Result.ok ()) (TileShape.paint_congr (fun i hi j hj ↦ ?_) c))
  have hcolour := hk.accumulates.stage_colour h hcomputes hnr (hi.trans_le h.mr_le) hj
  rw [hstage, Family.requantize_of_derive hp, hvalue, ← hk.shape_eq] at hcolour
  exact (Except.ok.inj hcolour).symm

/-- On packed weights the colours come from the accumulators of the filter. -/
theorem colour_of_pack {v : Variant} {f : Filter} {zp : ZeroPoints} {target : Bytes}
    (hpack : f.pack v.shape zp target = .ok call.weights)
    (hshape : f.toFilterShape = ⟨call.nc, call.ks, call.kc⟩) (h : v.shape.Admits call c.size)
    (hzero : a.kernelZeroPoint = zp.kernel) {i j : ℕ} (hi : i < call.mr) (hj : j < call.nc) :
    v.colour a call i j = v.family.referenceOf a
      (f.accumulator zp (fun tap k ↦ call.view.byteAt (tap * v.shape.mr + i) k) j) := by
  rw [colour, hzero, Portable.valuedAccumulator_operands hpack hshape h (hi.trans_le h.mr_le) hj]

end Run

end Variant

end QuantizedGemm
