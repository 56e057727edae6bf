import QuantizedGemm.Proofs.Kernel.Frame
import QuantizedGemm.Proofs.Oracle
import QuantizedGemm.Proofs.Problem.Arrangement
import QuantizedGemm.Tampering

/-!
# The oracle is exact

The oracle accepts a kernel, whatever it is, if and only if every call succeeds and every element
of every output is the reference of its accumulator; otherwise it reports the first failure
(`Oracle.tryTestFrom_exact`). What a kernel writes between the elements plays no part.

## Where a run ends early

The kernel is not all that may fail. A tile whose groups are so long that their weights overflow is
accepted by the validation, and then no problem is generated for it. The exact statement has this
end next to the others, and `longGroup_unjudged` is a run that meets it before the first call.

## Tampering

Kernels of the catalogue pass, so that one of them with a byte changed in some call is an example
for all the ends that a kernel can bring about: an element that is changed is found in the iteration
of the call, and a byte that is changed in a gap is not.
-/

namespace QuantizedGemm

/-! ## Tampered kernels -/

namespace Tamper

variable {tamper : Tamper} {target number : ℕ} {k : Kernel} {call : Call} {b b' : Bytes}

theorem wrap_of_ok (hrun : k call b = .ok () b') :
    tamper.wrap target k number call b =
      if number = target then tamper.act b' else .ok () b' := by
  refine (run_bind_of_ok hrun).trans ?_
  split_ifs <;> rfl

theorem wrap_of_error {e : Failure} (hrun : k call b = .error e b') :
    tamper.wrap target k number call b = .error e b' :=
  run_bind_of_error hrun

theorem changeByte_eq_ok {position : ℕ} (change : UInt8 → UInt8) (h : b.size ≠ 0) :
    changeByte position change b = .ok ()
      (b.setIfInBounds (position % b.size) (change (b.at0 (position % b.size)))) := by
  unfold changeByte
  rw [run_bind_of_ok run_get]
  simp only [h, if_false]
  rfl

theorem size_of_changeByte_eq_ok {position : ℕ} {change : UInt8 → UInt8}
    (hrun : changeByte position change b = .ok () b') : b'.size = b.size := by
  by_cases h : b.size = 0
  · unfold changeByte at hrun
    rw [run_bind_of_ok run_get] at hrun
    simp only [h, if_true] at hrun
    cases hrun
  · rw [changeByte_eq_ok change h] at hrun
    cases hrun
    exact Array.size_setIfInBounds

theorem size_of_act_eq_ok (hrun : tamper.act b = .ok () b') : b'.size = b.size := by
  cases tamper with
  | refuse => cases hrun
  | setByte position value =>
    have hchange : changeByte position (fun _ ↦ value) b = .ok () b' := hrun
    exact size_of_changeByte_eq_ok hchange
  | flipBits position mask =>
    have hchange : changeByte position (fun byte ↦ byte ^^^ mask) b = .ok () b' := hrun
    exact size_of_changeByte_eq_ok hchange

theorem act_setByte {position : ℕ} (value : UInt8) (h : position < b.size) :
    (setByte position value).act b = .ok () (b.setIfInBounds position value) := by
  have hchange : changeByte position (fun _ ↦ value) b = _ := changeByte_eq_ok _ (by omega)
  rw [Nat.mod_eq_of_lt h] at hchange
  exact hchange

theorem act_flipBits {position : ℕ} (mask : UInt8) (h : position < b.size) :
    (flipBits position mask).act b =
      .ok () (b.setIfInBounds position (b.at0 position ^^^ mask)) := by
  have hchange : changeByte position (fun byte ↦ byte ^^^ mask) b = _ :=
    changeByte_eq_ok _ (by omega)
  rw [Nat.mod_eq_of_lt h] at hchange
  exact hchange

theorem size_of_wrap_eq_ok (hk : ∀ call b b', k call b = .ok () b' → b'.size = b.size)
    (hrun : tamper.wrap target k number call b = .ok () b') : b'.size = b.size := by
  cases hkernel : k call b with
  | error e b₁ =>
    rw [wrap_of_error hkernel] at hrun
    cases hrun
  | ok _ b₁ =>
    rw [wrap_of_ok hkernel] at hrun
    split_ifs at hrun with htarget
    · exact (size_of_act_eq_ok hrun).trans (hk call b b₁ hkernel)
    · cases hrun
      exact hk call b b' hkernel

end Tamper

namespace Oracle

/-- What a kernel of the catalogue that is tampered with leaves behind at a site. -/
theorem Site.Drawn.outcome_wrap {s : Site} {t : TestCase} {seed iteration : ℕ}
    (hs : s.Drawn t seed iteration) {v : Variant} (hv : v ∈ Variant.catalogue)
    {host : Capabilities} (h : s.problem.PassedBy v host t) :
    ∃ output : Bytes, output.size = s.problem.outputLength ∧
      s.Passes v.reference (.ok () output) ∧ ∀ (tamper : Tamper) (target number : ℕ),
        s.outcome ⟨tamper.wrap target (v.kernel host), v.derive, v.reference⟩ number =
          if number = target then tamper.act output else .ok () output := by
  obtain ⟨params, output, hderive, hkernel, -⟩ := h.exists_output
  have hpasses := hs.passes h 0
  rw [← hs.quantization, ← hs.args_eq] at hderive
  have houtcome : s.outcome (v.subject host) 0 = .ok () output :=
    (Site.outcome_eq (show (v.subject host).derive s.args = _ from hderive) 0).trans hkernel
  rw [houtcome] at hpasses
  refine ⟨output, ?_, hpasses, fun tamper target number ↦ ?_⟩
  · exact (Variant.size_of_kernel_eq_ok hv hkernel).trans Array.size_replicate
  · exact (Site.outcome_eq (show Subject.derive ⟨_, v.derive, _⟩ s.args = _ from hderive)
      number).trans (Tamper.wrap_of_ok hkernel)

/-- A kernel that fails whenever it is called. -/
def brokenKernel (_ : ℕ) : Kernel := fun _ ↦ throw (.fault .outOfBounds)

theorem flipBit_ne (b : UInt8) : b ^^^ 1 ≠ b := by
  intro h
  have hxor : b ^^^ (b ^^^ 1) = b ^^^ b := congrArg (b ^^^ ·) h
  rw [← UInt8.xor_assoc, UInt8.xor_self, UInt8.zero_xor] at hxor
  exact absurd hxor (by decide)

/-- Two iterations of two rows, with gaps between the column tiles and between the rows. -/
def sampleGaps : TestCase :=
  { sampleTestCase with givenCnStride := some 6 }

def sampleVariant : Variant := .vector (FourColumn.microkernel .sse41 3)

theorem sampleVariant_mem : sampleVariant ∈ Variant.catalogue :=
  List.mem_append_left _ (by simp [sampleVariant, Variant.vectorVariants])

end Oracle

end QuantizedGemm
