/-!
# Ranges of characters

A set of characters given as the ranges of their numbers.
-/

namespace QuantizedGemm.Text

/-- Whether `c` lies in one of the ranges, ends included. -/
def liesIn (ranges : List (Nat × Nat)) (c : Char) : Bool :=
  ranges.any fun r ↦ r.1 ≤ c.toNat && c.toNat ≤ r.2

@[simp] theorem liesIn_iff {ranges : List (Nat × Nat)} {c : Char} :
    liesIn ranges c = true ↔ ∃ r ∈ ranges, r.1 ≤ c.toNat ∧ c.toNat ≤ r.2 := by
  simp [liesIn]

end QuantizedGemm.Text
