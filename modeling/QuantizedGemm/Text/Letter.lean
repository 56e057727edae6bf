/-!
# ASCII letters

Words that are recognised in any case of their letters. Only the letters `A` to `Z` have a
lower-case form here.
-/

namespace QuantizedGemm.Text

/-- The lower-case form of an ASCII letter; every other character is its own. -/
def lowerAscii (c : Char) : Char := if 'A' ≤ c ∧ c ≤ 'Z' then Char.ofNat (c.toNat + 32) else c

/-- Whether `cs` spells a lower-case word, in any case of its letters. -/
def spells (word : String) (cs : List Char) : Bool := cs.map lowerAscii == word.toList

end QuantizedGemm.Text
