import QuantizedGemm.Error
import QuantizedGemm.Quantization.Args
import QuantizedGemm.Packing
import QuantizedGemm.Settings
import QuantizedGemm.Tile

/-!
# Test cases

A test case is a problem of `m` rows, `n` columns and `ks` taps of length `k` for a kernel of a
given tile shape, with zero points, an output range, and optional strides. A stride that is not
given follows from the tile.

## What is validated

A test case is refused if one of its sizes is zero, if it has more rows than the tile, if its row of
padding is no row of the tile, if its strides let outputs overlap, or if its output range is empty,
in this order. Nothing is asked of the length of groups and of the whole reduction: that they have
room is for packing to find out.

## Settings

The settings of a run replace the number of iterations. A seed is looked for in the test case first
and in the settings then, and one that is given nowhere is drawn afresh for each run.
-/

namespace QuantizedGemm

/-- One test case. -/
structure TestCase where
  shape : TileShape := ⟨1, 1, 1, 1⟩
  m : Nat := 1
  n : Nat := 1
  k : Nat := 1
  ks : Nat := 1
  /-- The offset that the kernel adds to every row that is no padding. -/
  aOffset : Nat := 0
  /-- The row that is padding in every tap. -/
  zeroIndex : Option Nat := none
  givenCmStride : Option Nat := none
  givenCnStride : Option Nat := none
  aZeroPoint : UInt8 := 127
  bZeroPoint : UInt8 := 127
  qmin : UInt8 := 0
  qmax : UInt8 := 255
  iterations : Nat := 15
  /-- A seed of its own, which precedes the one of the settings. -/
  seed : Option Nat := none
  settings : Settings := {}
  deriving DecidableEq, Repr

namespace TestCase

variable (t : TestCase)

/-- The distance of column tiles, by default their width. -/
def cnStride : Nat := t.givenCnStride.getD t.shape.nr

/-- The distance of rows, by default what their column tiles take up. -/
def cmStride : Nat := t.givenCmStride.getD (t.cnStride * divideUp t.n t.shape.nr)

/-- The number of iterations to run. -/
def effectiveIterations : Nat := t.settings.iterations.getD t.iterations

/-- The seed to use, where `entropy` stands in for one that is given nowhere. -/
def effectiveSeed (entropy : Nat) : Nat := (t.seed.or t.settings.seed).getD entropy

def filterShape : FilterShape := ⟨t.n, t.ks, t.k⟩

/-- The sizes that have to be positive, in the order in which they are checked. -/
def positiveSizes : List (String × Nat) :=
  [("mr", t.shape.mr), ("nr", t.shape.nr), ("kr", t.shape.kr), ("sr", t.shape.sr),
   ("m", t.m), ("n", t.n), ("k", t.k), ("ks", t.ks)]

def rowExtent : Nat := outputLength 1 t.n t.shape.nr 0 t.cnStride

/-- The problem fits the tile, and its output has room for every element. -/
def validate : Except Error Unit := do
  if let some (name, _) := t.positiveSizes.find? fun p ↦ p.2 == 0 then
    throw (.config s!"{name} must be positive")
  if t.shape.mr < t.m then throw (.config s!"m = {t.m} exceeds mr = {t.shape.mr}")
  if let some z := t.zeroIndex then
    if t.shape.mr ≤ z then throw (.config s!"zero index {z} outside mr = {t.shape.mr}")
  if t.cnStride < t.shape.nr then
    throw (.config s!"cn_stride = {t.cnStride} is smaller than nr = {t.shape.nr}")
  if 1 < t.m ∧ t.cmStride < t.rowExtent then
    throw (.config s!"cm_stride = {t.cmStride} overlaps rows spanning {t.rowExtent} bytes")
  if t.qmax < t.qmin then throw (.config s!"qmin {t.qmin} > qmax {t.qmax}")

/-- The test case on one line. There is none where the distance of rows follows from column tiles
that have no width. -/
def description? : Option String :=
  if t.givenCmStride.isNone && t.shape.nr == 0 then none
  else
    let shape := s!"{t.shape.mr}x{t.shape.nr}c{t.shape.kr}s{t.shape.sr}"
    let sizes := s!"m={t.m} n={t.n} k={t.k} ks={t.ks} a_offset={t.aOffset}"
    let strides := s!"cm_stride={t.cmStride} cn_stride={t.cnStride}"
    let quantization := s!"zp={t.aZeroPoint}/{t.bZeroPoint} q=[{t.qmin}, {t.qmax}]"
    let zeroRow := match t.zeroIndex with
      | some z => s!" zero_index={z}"
      | none => ""
    some s!"{shape} {sizes} {strides} {quantization}{zeroRow}"

end TestCase

end QuantizedGemm
