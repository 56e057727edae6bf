/-!
# Sums that wrap

Sums of signed 32-bit integers, which wrap around. Any grouping of the summands gives the same sum.
-/

namespace QuantizedGemm

/-- The sum of `f 0`, …, `f (n - 1)`. -/
@[inline] def sumBelow (n : Nat) (f : Nat → Int32) : Int32 := n.fold (fun i _ s ↦ s + f i) 0

@[simp] theorem sumBelow_zero (f : Nat → Int32) : sumBelow 0 f = 0 := rfl

@[simp] theorem sumBelow_succ (n : Nat) (f : Nat → Int32) :
    sumBelow (n + 1) f = sumBelow n f + f n := by simp [sumBelow]

end QuantizedGemm
