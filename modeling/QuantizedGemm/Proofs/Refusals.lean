import QuantizedGemm.Proofs.Kernel.Frame
import QuantizedGemm.Proofs.Problem

/-!
# Where refusals come from

A check refuses within one area: the validation of a test case finds fault with its configuration,
packing and the check of a call with what a kernel can take. Sequencing keeps this, so that the area
of a check is known from its steps (`RefusesIn.bind`).

## What is never refused

On the way from a test case to its outputs only the derivation of parameters looks at a
quantization: neither generating a problem (`Problem.not_from_quantization_of_generate`) nor calling
a kernel of the catalogue (`Variant.not_from_quantization_of_kernel`) fails on account of one. So a
run that ends with such a refusal tells something about the derivation, or about a kernel that is
not of the catalogue.
-/

namespace QuantizedGemm

/-- What a refusal can be about. -/
inductive Area where
  | kernel
  | quantization
  | validation
  | config
  deriving DecidableEq

def Error.area : Error → Area
  | .kernel _ => .kernel
  | .quantization _ => .quantization
  | .validation _ => .validation
  | .config _ => .config

/-- A failure that is a refusal within an area. -/
def Failure.From (area : Area) (e : Failure) : Prop :=
  ∃ cause, e = .refused cause ∧ cause.area = area

@[simp] theorem Failure.from_refused_iff {area : Area} {cause : Error} :
    (Failure.refused cause).From area ↔ cause.area = area := by
  constructor
  · rintro ⟨_, ⟨⟩, h⟩
    exact h
  · intro h
    exact ⟨cause, rfl, h⟩

@[simp] theorem Failure.not_from_fault (area : Area) (fault : Fault) :
    ¬(Failure.fault fault).From area :=
  nofun

/-- Every refusal of a check is within one area. -/
def RefusesIn {α : Type} (area : Area) (x : Except Error α) : Prop :=
  ∀ cause, x = .error cause → cause.area = area

section Checks

variable {α β : Type} {area : Area} {x : Except Error α} {f : α → Except Error β} {cause : Error}

@[simp] theorem refusesIn_ok (a : α) : RefusesIn area (.ok a : Except Error α) := nofun

theorem refusesIn_error (h : cause.area = area) :
    RefusesIn area (.error cause : Except Error α) := by
  rintro _ ⟨⟩
  exact h

theorem RefusesIn.bind (hx : RefusesIn area x) (hf : ∀ a, RefusesIn area (f a)) :
    RefusesIn area (x >>= f) := by
  intro cause h
  rcases bind_eq_error_iff.mp h with h | ⟨a, -, h⟩
  · exact hx cause h
  · exact hf a cause h

theorem refusesIn_throw_bind (h : cause.area = area) (f : α → Except Error β) :
    RefusesIn area ((throw cause : Except Error α) >>= f) := by
  rintro _ ⟨⟩
  exact h

theorem RefusesIn.refuse_if {p : Prop} [Decidable p] {y : Except Error β} (h : cause.area = area)
    (hy : RefusesIn area y) :
    RefusesIn area (if p then (throw cause : Except Error α) >>= f else y) := by
  split_ifs
  · exact refusesIn_throw_bind h f
  · exact hy

theorem refusesIn_refuse_last {p : Prop} [Decidable p] (h : cause.area = area) :
    RefusesIn area (if p then throw cause else pure () : Except Error Unit) := by
  split_ifs
  · exact refusesIn_error h
  · exact refusesIn_ok ()

theorem refusesIn_requireLength (what : String) (required actual : ℕ) :
    RefusesIn .kernel (requireLength what required actual) := by
  unfold requireLength
  split_ifs
  · exact refusesIn_error rfl
  · exact refusesIn_ok ()

end Checks

/-! ## Test cases and packing -/

theorem TestCase.refusesIn_validate (t : TestCase) : RefusesIn .config t.validate := by
  unfold validate
  simp only []
  split
  case h_1 => exact refusesIn_throw_bind rfl _
  case h_2 =>
    refine .refuse_if rfl ?_
    -- the padding row is only checked where there is one
    split
    case h_1 => exact .refuse_if rfl (.refuse_if rfl (.refuse_if rfl (refusesIn_refuse_last rfl)))
    case h_2 => exact .refuse_if rfl (.refuse_if rfl (refusesIn_refuse_last rfl))

theorem Filter.refusesIn_checkPack (f : Filter) (t : TileShape) (target : Bytes) :
    RefusesIn .kernel (f.checkPack t target) := by
  unfold checkPack
  dsimp only
  refine .refuse_if rfl (.bind (refusesIn_requireLength _ _ _) fun _ ↦ ?_)
  split
  · refine .bind (refusesIn_requireLength _ _ _) fun _ ↦ ?_
    exact .bind (refusesIn_requireLength _ _ _) fun _ ↦ refusesIn_refuse_last rfl
  · exact .bind (refusesIn_requireLength _ _ _) fun _ ↦ refusesIn_refuse_last rfl

theorem Filter.not_from_quantization_of_pack {f : Filter} {t : TileShape} {zp : ZeroPoints}
    {target : Bytes} {e : Failure} (hpack : f.pack t zp target = .error e) :
    ¬e.From .quantization := by
  cases hcheck : f.checkPack t target with
  | error cause =>
    obtain rfl := Except.error.inj ((pack_eq_refused hcheck).symm.trans hpack)
    rw [Failure.from_refused_iff, f.refusesIn_checkPack t target cause hcheck]
    decide
  | ok _ =>
    have hpackable := checkPack_eq_ok_iff.mp hcheck
    by_cases hfits : f.Fits t zp
    · obtain ⟨packed, hok⟩ := exists_pack hpackable hfits
      cases hok.symm.trans hpack
    · obtain rfl := Except.error.inj ((pack_eq_overflow hpackable hfits).symm.trans hpack)
      exact Failure.not_from_fault _ _

/-- No quantization is refused where a problem is generated. -/
theorem Problem.not_from_quantization_of_generate {σ : Type} [WordSource σ] {attempts : ℕ}
    {t : TestCase} {s : σ} {e : Failure}
    (hrun : (generate attempts t : Draw σ Problem).run s = .error e) : ¬e.From .quantization := by
  rcases of_run_generate_eq_error hrun with ⟨cause, hvalidate, rfl⟩ | rfl | ⟨o, s', -, hpack⟩
  · rw [Failure.from_refused_iff, t.refusesIn_validate cause hvalidate]
    decide
  · exact Failure.not_from_fault _ _
  · exact Filter.not_from_quantization_of_pack hpack

/-! ## Kernels -/

theorem IndirectView.refusesIn_validate (v : IndirectView) (mr ks kc : ℕ) :
    RefusesIn .kernel (v.validate mr ks kc) := by
  unfold validate
  refine .bind (refusesIn_requireLength _ _ _) fun _ ↦ ?_
  split
  · exact refusesIn_ok _
  · exact refusesIn_requireLength _ _ _

theorem TileShape.refusesIn_check (t : TileShape) (call : Call) (size : ℕ) :
    RefusesIn .kernel (t.check call size) := by
  unfold check
  dsimp only
  refine .refuse_if rfl (.bind (call.view.refusesIn_validate _ _ _) fun _ ↦ ?_)
  exact .bind (refusesIn_requireLength _ _ _) fun _ ↦ refusesIn_requireLength _ _ _

/-- No quantization is refused by a kernel of the catalogue, whatever the call is. -/
theorem Variant.not_from_quantization_of_kernel {v : Variant} (hv : v ∈ catalogue)
    {host : Capabilities} {call : Call} {e : Failure} {b b' : Bytes}
    (hrun : v.kernel host call b = .error e b') : ¬e.From .quantization := by
  obtain ⟨π, _, _, k, value, stage, sound, hk⟩ := exists_implements hv
  rw [hk.kernel_eq] at hrun
  by_cases hown : call.params.family = ParamsFamily.family π
  · obtain ⟨p, hp⟩ := Params.exists_get hown
    cases hcheck : k.shape.check call b.size with
    | error cause =>
      cases (Microkernel.kernel_eq_refused hp hcheck).symm.trans hrun
      rw [Failure.from_refused_iff, k.shape.refusesIn_check _ _ cause hcheck]
      decide
    | ok _ =>
      have hadmits := TileShape.check_eq_ok_iff.mp hcheck
      cases hhost : host.supports k.isa with
      | false =>
        cases (Microkernel.kernel_eq_unsupported hp hadmits hhost).symm.trans hrun
        rw [Failure.from_refused_iff]
        exact nofun
      | true =>
        -- an accepted call succeeds, or it ends with a fault
        obtain ⟨c, -, hok | ⟨fault, hfault⟩⟩ := Microkernel.kernel_of_admits hp hhost hadmits
        · cases hok.symm.trans hrun
        · cases hfault.symm.trans hrun
          exact Failure.not_from_fault _ _
  · cases (Microkernel.kernel_eq_mismatch hown).symm.trans hrun
    rw [Failure.from_refused_iff]
    exact nofun

end QuantizedGemm
