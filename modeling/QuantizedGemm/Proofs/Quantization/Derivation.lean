import QuantizedGemm.Proofs.Outcome
import QuantizedGemm.Quantization.Params

/-!
# Derived parameters

A family refuses arguments that are not valid for its scales. From all others it derives the same
parameters, whatever the scale is (`Family.derive_eq_ok_iff`).

## One statement for five families

The families differ in what they precompute and in the scales that they take, and not in how they
decide. So the decision is stated once, for any family, with `Family.maxScale` and `Family.params`
in place of the differences. What the precomputed fields are good for is the matter of the output
stages.
-/

namespace QuantizedGemm

namespace Family

/-- The parameters of a family, for arguments that it accepts. -/
def params (a : QuantizationArgs) : Family → Params
  | fmagic => .fmagic a.fmagicParams
  | imagic => .imagic a.imagicParams
  | lrintf => .lrintf a.lrintfParams
  | simd => .simd a.simdParams
  | rndnu => .rndnu a.rndnuParams

variable {f : Family} {a : QuantizationArgs} {p : Params}

theorem derive_eq_ok_iff :
    f.derive a = .ok p ↔ a.validate f.maxScale = .ok () ∧ f.params a = p := by
  refine check_bind_eq_ok_iff.trans (and_congr_right fun _ ↦ ?_)
  cases f <;> exact Except.ok.injEq .. |>.to_iff

/-- A family derives parameters from all arguments that are valid for its scales. -/
theorem exists_derive (f : Family) (h : a.validate f.maxScale = .ok ()) :
    ∃ p, f.derive a = .ok p := ⟨f.params a, derive_eq_ok_iff.mpr ⟨h, rfl⟩⟩

theorem exists_derive_iff : (∃ p, f.derive a = .ok p) ↔ a.validate f.maxScale = .ok () :=
  ⟨fun ⟨_, h⟩ ↦ (derive_eq_ok_iff.mp h).1, f.exists_derive⟩

theorem validate_of_derive (h : f.derive a = .ok p) : a.validate f.maxScale = .ok () :=
  (derive_eq_ok_iff.mp h).1

end Family

end QuantizedGemm
