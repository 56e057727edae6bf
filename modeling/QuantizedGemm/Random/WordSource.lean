import QuantizedGemm.Error

/-!
# Sources of random words

Operands are drawn from a source of 32-bit words. A drawing takes words from the state of the source
one after the other and hands the state on, so that whatever is drawn later continues where it
stopped. Nothing depends on which source it is.
-/

namespace QuantizedGemm

/-- A type whose values yield a word and their successor. -/
class WordSource (σ : Type) where
  next : σ → UInt32 × σ

/-- A computation that draws words, and that may fail. -/
abbrev Draw (σ α : Type) := StateT σ (Except Failure) α

variable {σ : Type} [WordSource σ]

def drawWord : Draw σ UInt32 := fun s ↦ .ok (WordSource.next s)

end QuantizedGemm
