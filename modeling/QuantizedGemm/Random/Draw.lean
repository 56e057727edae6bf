import QuantizedGemm.Arith
import QuantizedGemm.Bytes
import QuantizedGemm.Random.WordSource

/-!
# Drawing operands

Bytes, numbers below a bound, and permutations, from a source of words.

* Bytes use up whole words, low byte first; what is left of the last word is lost.
* A number below `r` is the upper half of the product of a word with `r`. Where the lower half is so
  large that the next word could carry into the upper one, that word is drawn too. For an `r` that
  no word holds, several words are drawn as one.
* A permutation needs an index below 1, 2, 3, …. Several of these indices are taken from one number,
  as many as a bound of 32 bits has room for. A list too long for that draws every index by itself.
-/

namespace QuantizedGemm

variable {σ : Type} [WordSource σ]

/-- The number of values of a word. -/
def wordRange : Nat := UInt32.size

def drawBytes (count : Nat) : Draw σ Bytes := do
  let words ← (List.range (divideUp count 4)).mapM fun _ ↦ drawWord
  pure ((words.flatMap fun w ↦ littleEndian 4 w.toNat).take count).toArray

/-- Whether not all bytes are equal. -/
def isVaried (b : Bytes) : Bool := b.any fun x ↦ x != b.at0 0

/-- Draws bytes until they are not all equal, at most `attempts` times. A string of one byte or none
is taken as it comes. -/
def drawVaried : (attempts count : Nat) → Draw σ Bytes
  | 0, _ => throw (.fault .exhausted)
  | attempts + 1, count => do
    let b ← drawBytes count
    if count ≤ 1 || isVaried b then pure b else drawVaried attempts count

/-- Several words as one number, the low word first. -/
def drawWords (count : Nat) : Draw σ Nat := do
  let words ← (List.range count).mapM fun _ ↦ drawWord
  pure (words.foldr (fun w n ↦ w.toNat + wordRange * n) 0)

/-- A number below `range`, from as many words as the range takes. -/
def drawBelow (range : Nat) : Draw σ Nat := do
  let count := range.log2 / 32 + 1
  let size := 1 <<< (32 * count)
  let product := (← drawWords count) * range
  let high := product / size
  let low := product % size
  if size - range < low then
    let carry := low + (← drawWords count) * range / size
    pure (if size ≤ carry then high + 1 else high)
  else pure high

/-! ## Permutations -/

/-- What is left of the last number drawn: indices below `count + 1`, `count + 2`, …, `remaining` of
them, are still in `chunk`. -/
structure IndexSupply where
  count : Nat
  chunk : Nat
  remaining : Nat

/-- Multiplies `product` by `factor`, `factor + 1`, … as long as it stays in 32 bits. The result is
the product and the first factor left out. With factors above two, thirty-two steps are enough. -/
def growProduct : (steps product factor : Nat) → Nat × Nat
  | 0, product, factor => (product, factor)
  | steps + 1, product, factor =>
    if product * factor < wordRange then growProduct steps (product * factor) (factor + 1)
    else (product, factor)

/-- Draws a number that holds as many of the coming indices as possible, if none is left. -/
def IndexSupply.refill (s : IndexSupply) : Draw σ IndexSupply :=
  if s.remaining = 0 then do
    let first := s.count + 1
    let (product, factor) := growProduct 32 first (first + 1)
    pure ⟨s.count, ← drawBelow product, factor - first⟩
  else pure s

/-- The next index, one below `s.count + 1`. -/
def IndexSupply.next (s : IndexSupply) : Draw σ (Nat × IndexSupply) := do
  let s ← s.refill
  let bound := s.count + 1
  if s.remaining = 1 then pure (s.chunk, ⟨bound, s.chunk, 0⟩)
  else pure (s.chunk % bound, ⟨bound, s.chunk / bound, s.remaining - 1⟩)

def swapItems {α : Type} (items : Array α) (i j : Nat) : Draw σ (Array α) :=
  if i < items.size ∧ j < items.size then pure (items.swapIfInBounds i j)
  else throw (.fault .outOfBounds)

/-- Swaps each item in turn with one at a drawn position before it, or leaves it in place. -/
def shuffleItems {α : Type} (items : Array α) : Draw σ (Array α) := do
  let result ← (List.range items.size).foldlM
    (fun (p : Array α × IndexSupply) i ↦ do
      let (index, supply) ← p.2.next
      pure (← swapItems p.1 i index, supply))
    (items, ⟨0, 0, 1⟩)
  pure result.1

/-- `shuffleItems`, with positions that are drawn one by one. -/
def shuffleLong {α : Type} (items : Array α) : Draw σ (Array α) :=
  (List.range items.size).foldlM
    (fun items i ↦ do
      let index ← drawBelow (i + 1)
      swapItems items i index)
    items

/-- A random permutation. A list of one item or none takes no words. -/
def shuffle {α : Type} (items : Array α) : Draw σ (Array α) :=
  if items.size ≤ 1 then pure items
  else if items.size < wordRange - 1 then shuffleItems items
  else shuffleLong items

end QuantizedGemm
