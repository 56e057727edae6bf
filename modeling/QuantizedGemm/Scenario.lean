import QuantizedGemm.Arith
import QuantizedGemm.Oracle

/-!
# Scenarios

A scenario expands to test cases for a given tile shape. With the block `kb = kr * sr` of the
reduction, most of them sweep `k` over `1`, `kb + 2`, `2 * kb + 3`, … up to `5 * kb`. Those that end
in `subtile` also sweep the rows up to `mr` or the columns up to `nr`, with one iteration each.

## Names

A scenario has a key, which may be asked for, and a name for its tests, which spells out the number
that it is about: the block of the tile or the number of its columns. A scenario whose sweep is
empty has no test cases, and passes.

## Seeds

Each test case of a run that fixes no seed draws one of its own. So what stands in for these seeds
is a function of the number of the test case, and not one number for the whole run.
-/

namespace QuantizedGemm

/-- The scenarios. -/
inductive Scenario where
  | kEq | stridedCn | kEqSubtile | kEqSubtileM | kEqSubtileN
  | kLt | kLtSubtile | kGt | kGtSubtile | kDiv | kDivSubtile
  | nGt | nGtStridedCn | nGtSubtile | nDiv | nDivStridedCn | nDivSubtile
  | smallKernel | smallKernelSubtile | nGtSmallKernel | nDivSmallKernel
  | stridedCmSubtile | aOffset | zero | qmin | qmax | stridedCm
  | noAZeroPoint | noBZeroPoint | noZeroPoint
  deriving DecidableEq, Repr

namespace Scenario

/-- Every scenario, in the order in which they are run. -/
def all : List Scenario :=
  [kEq, stridedCn, kEqSubtile, kEqSubtileM, kEqSubtileN, kLt, kLtSubtile, kGt, kGtSubtile, kDiv,
   kDivSubtile, nGt, nGtStridedCn, nGtSubtile, nDiv, nDivStridedCn, nDivSubtile, smallKernel,
   smallKernelSubtile, nGtSmallKernel, nDivSmallKernel, stridedCmSubtile, aOffset, zero, qmin,
   qmax, stridedCm, noAZeroPoint, noBZeroPoint, noZeroPoint]

/-! ## Names -/

def words : Scenario → List String
  | kEq => ["k", "eq"]
  | stridedCn => ["strided", "cn"]
  | kEqSubtile => ["k", "eq", "subtile"]
  | kEqSubtileM => ["k", "eq", "subtile", "m"]
  | kEqSubtileN => ["k", "eq", "subtile", "n"]
  | kLt => ["k", "lt"]
  | kLtSubtile => ["k", "lt", "subtile"]
  | kGt => ["k", "gt"]
  | kGtSubtile => ["k", "gt", "subtile"]
  | kDiv => ["k", "div"]
  | kDivSubtile => ["k", "div", "subtile"]
  | nGt => ["n", "gt"]
  | nGtStridedCn => ["n", "gt", "strided", "cn"]
  | nGtSubtile => ["n", "gt", "subtile"]
  | nDiv => ["n", "div"]
  | nDivStridedCn => ["n", "div", "strided", "cn"]
  | nDivSubtile => ["n", "div", "subtile"]
  | smallKernel => ["small", "kernel"]
  | smallKernelSubtile => ["small", "kernel", "subtile"]
  | nGtSmallKernel => ["n", "gt", "small", "kernel"]
  | nDivSmallKernel => ["n", "div", "small", "kernel"]
  | stridedCmSubtile => ["strided", "cm", "subtile"]
  | aOffset => ["a", "offset"]
  | zero => ["zero"]
  | qmin => ["qmin"]
  | qmax => ["qmax"]
  | stridedCm => ["strided", "cm"]
  | noAZeroPoint => ["no", "a", "zero", "point"]
  | noBZeroPoint => ["no", "b", "zero", "point"]
  | noZeroPoint => ["no", "zero", "point"]

/-- The name by which a scenario is asked for. -/
def key (s : Scenario) : String := String.intercalate "_" s.words

/-- The name of the constructor, as reports on a value's structure write it. -/
def constructorName (s : Scenario) : String := String.join (s.words.map String.capitalize)

/-- The scenario of a given name. -/
def ofKey? (k : String) : Option Scenario := all.find? fun s ↦ s.key == k

/-- The size that a scenario is about: the block of the reduction, or the width of the tile. -/
def size? (s : Scenario) (t : TileShape) : Option Nat :=
  match s.words with
  | "k" :: _ => some t.kBlock
  | "n" :: _ => some t.nr
  | _ => none

/-- The words of a scenario's name with the size behind the first two of them. -/
def numberedWords (s : Scenario) (t : TileShape) : List String :=
  match s.size? t with
  | some n => s.words.take 2 ++ toString n :: s.words.drop 2
  | none => s.words

/-- The name under which a scenario of a variant is reported. -/
def testName (s : Scenario) (v : Variant) : String :=
  v.name ++ "." ++ String.intercalate "_" (s.numberedWords v.shape)

/-! ## Sizes -/

/-- The numbers from `low` to below `high`. -/
def upTo (low high : Nat) : List Nat := List.range' low (high - low)

variable (t : TileShape)

/-- `1`, `kb + 2`, `2 * kb + 3`, … up to `5 * kb`. -/
def kSweep : List Nat := List.range' 1 (divideUp (5 * t.kBlock) (t.kBlock + 1)) (t.kBlock + 1)

/-- Reductions shorter than a block. -/
def kBelow : List Nat := upTo 1 t.kBlock

/-- Reductions longer than a block, and shorter than two where a block has more than one
position. -/
def kAbove : List Nat := upTo (t.kBlock + 1) (if t.kBlock = 1 then 10 else 2 * t.kBlock)

/-- Two to ten blocks, where a block has more than one position. -/
def kMultiples : List Nat := if 1 < t.kBlock then List.range' (2 * t.kBlock) 9 t.kBlock else []

/-- More columns than a tile has, and fewer than two tiles where a tile has more than one. -/
def nAbove : List Nat := upTo (t.nr + 1) (if t.nr = 1 then 10 else 2 * t.nr)

/-- The columns of two and of three tiles. -/
def nMultiples : List Nat := [2 * t.nr, 3 * t.nr]

/-- All numbers of rows of a tile. -/
def allM : List Nat := upTo 1 (t.mr + 1)

/-- All numbers of columns of a tile. -/
def allN : List Nat := upTo 1 (t.nr + 1)

/-- A stride that lines up with no tile. -/
def primeStride : Nat := nextPrime (t.nr + 1)

/-- An offset beyond every row of the sweep. -/
def primeOffset : Nat := nextPrime (t.mr * t.kBlock * 5 + 1)

/-! ## Test cases -/

/-- A full tile. -/
def base : TestCase := { shape := t, m := t.mr, n := t.nr }

/-- Test cases for all combinations, the columns varying slowest and the rows fastest. -/
def grid (ns ks ms : List Nat) : List TestCase :=
  ns.flatMap fun n ↦ ks.flatMap fun k ↦ ms.map fun m ↦ { base t with m := m, n := n, k := k }

def once (cases : List TestCase) : List TestCase := cases.map fun c ↦ { c with iterations := 1 }

/-- The test cases with three taps. -/
def threeTaps (cases : List TestCase) : List TestCase := cases.map fun c ↦ { c with ks := 3 }

/-- The test cases with column tiles further apart than they are wide. -/
def spreadColumns (cases : List TestCase) : List TestCase :=
  cases.map fun c ↦ { c with givenCnStride := some (primeStride t) }

/-- The test cases with rows further apart than they are wide. -/
def spreadRows (cases : List TestCase) : List TestCase :=
  cases.map fun c ↦ { c with givenCmStride := some (primeStride t) }

def withOffset (cases : List TestCase) : List TestCase :=
  cases.map fun c ↦ { c with aOffset := primeOffset t }

def testCases (s : Scenario) : List TestCase :=
  let kb := t.kBlock
  let sweep := kSweep t
  match s with
  | kEq => grid t [t.nr] [kb] [t.mr]
  | stridedCn => spreadColumns t (grid t [t.nr] [kb] [t.mr])
  | kEqSubtile => once (grid t (allN t) [kb] (allM t))
  | kEqSubtileM => once (grid t [t.nr] [kb] (allM t))
  | kEqSubtileN => once (grid t (allN t) [kb] [t.mr])
  | kLt => grid t [t.nr] (kBelow t) [t.mr]
  | kLtSubtile => once (grid t (allN t) (kBelow t) (allM t))
  | kGt => grid t [t.nr] (kAbove t) [t.mr]
  | kGtSubtile => once (grid t (allN t) (kAbove t) (allM t))
  | kDiv => grid t [t.nr] (kMultiples t) [t.mr]
  | kDivSubtile => once (grid t (allN t) (kMultiples t) (allM t))
  | nGt => grid t (nAbove t) sweep [t.mr]
  | nGtStridedCn => spreadColumns t (grid t (nAbove t) sweep [t.mr])
  | nGtSubtile => once (grid t (nAbove t) sweep (allM t))
  | nDiv => grid t (nMultiples t) sweep [t.mr]
  | nDivStridedCn => spreadColumns t (grid t (nMultiples t) sweep [t.mr])
  | nDivSubtile => once (grid t (nMultiples t) sweep (allM t))
  | smallKernel => threeTaps (grid t [t.nr] sweep [t.mr])
  | smallKernelSubtile => threeTaps (once (grid t (allN t) sweep (allM t)))
  | nGtSmallKernel => threeTaps (grid t (nAbove t) sweep [t.mr])
  | nDivSmallKernel => threeTaps (grid t (nMultiples t) sweep [t.mr])
  | stridedCmSubtile => spreadRows t (once (grid t (allN t) sweep (allM t)))
  | aOffset => withOffset t (threeTaps (grid t [t.nr] sweep [t.mr]))
  | zero =>
    (List.range t.mr).flatMap fun z ↦
      (withOffset t (threeTaps (grid t [t.nr] sweep [t.mr]))).map fun c ↦
        { c with zeroIndex := some z }
  | qmin => [{ base t with k := kb, qmin := 128 }]
  | qmax => [{ base t with k := kb, qmax := 128 }]
  | stridedCm => spreadRows t (grid t [t.nr] [kb] [t.mr])
  | noAZeroPoint => (grid t [t.nr] sweep [t.mr]).map fun c ↦ { c with aZeroPoint := 0 }
  | noBZeroPoint => (grid t [t.nr] sweep [t.mr]).map fun c ↦ { c with bZeroPoint := 0 }
  | noZeroPoint =>
    (grid t [t.nr] sweep [t.mr]).map fun c ↦ { c with aZeroPoint := 0, bZeroPoint := 0 }

/-! ## Running -/

/-- Runs test cases one after the other, up to the first failure. Each test case has fresh entropy,
the first one `entropy 0`. -/
def runAll (subject : Subject) (entropy : Nat → Nat) : List TestCase → (call : Nat) → Verdict
  | [], call => ⟨call, .ok ()⟩
  | c :: rest, call =>
    let verdict := Oracle.tryTest c subject (entropy 0) call
    match verdict.result with
    | .error _ => verdict
    | .ok _ => runAll subject (fun n ↦ entropy (n + 1)) rest verdict.calls

def run (s : Scenario) (subject : Subject) (settings : Settings) (entropy : Nat → Nat) : Verdict :=
  runAll subject entropy ((s.testCases t).map fun c ↦ { c with settings := settings }) 0

end Scenario

end QuantizedGemm
