import QuantizedGemm.Registry
import QuantizedGemm.Scenario

/-!
# Conformance reports

A conformance run takes every variant through every scenario. A case, one variant in one scenario,
is passed, failed, or skipped because the host does not run the variant.

## Order and counts

A run goes through the variants in the order of the registry and takes each of them through the
scenarios; it prints a line for each case and counts the cases by their outcomes as it goes. So
lines and counts grow together, and the exit code is a function of the counts.
-/

namespace QuantizedGemm.Conformance

/-! ## Sites -/

/-- Where the program runs. -/
structure Site where
  host : Capabilities
  environment : Environment
  /-- The seed that a test case is given where nobody chose one. Each test case of a variant in a
  scenario has its own, by its place in the scenario. -/
  entropy : Variant → Scenario → Nat → Nat

/-- Whether a probe finds that the host runs a variant. -/
def Site.available (s : Site) (v : Variant) : Bool :=
  (v.isAvailable s.host s.environment.forcesScalar).value

/-! ## Filters -/

def occursIn (part : List Char) : List Char → Bool
  | [] => part.isEmpty
  | c :: cs => part.isPrefixOf (c :: cs) || occursIn part cs

/-- Whether a name has a given part. Every name has one that is not given. -/
def nameMatches (part : Option String) (name : String) : Bool :=
  part.all fun p ↦ occursIn p.toList name.toList

/-! ## Outcomes -/

/-- How a case ended. -/
inductive Outcome where
  | passed
  | failed (cause : Failure)
  | skipped
  deriving DecidableEq

namespace Outcome

/-- The outcome of a run that ended like this. -/
def ofResult : Except Failure Unit → Outcome
  | .ok _ => passed
  | .error cause => failed cause

/-- The line that reports a case of a given name. -/
def line (name : String) : Outcome → String
  | passed => s!"PASS {name}"
  | failed cause => s!"FAIL {name}: {cause.message}"
  | skipped => s!"SKIP {name}"

end Outcome

/-! ## Tallies -/

/-- The numbers of cases by their outcomes. -/
structure Tally where
  passed : Nat := 0
  failed : Nat := 0
  skipped : Nat := 0
  deriving DecidableEq, Repr

namespace Tally

variable (t : Tally)

/-- Counts one more case. -/
def count : Outcome → Tally
  | .passed => { t with passed := t.passed + 1 }
  | .failed _ => { t with failed := t.failed + 1 }
  | .skipped => { t with skipped := t.skipped + 1 }

/-- The number of all cases. -/
def total : Nat := t.passed + t.failed + t.skipped

/-- The line with the numbers of cases. -/
def line : String := s!"{t.passed} passed, {t.failed} failed, {t.skipped} skipped"

def exitCode : UInt32 := if t.failed = 0 then 0 else 1

end Tally

/-! ## Reports -/

/-- What a run has printed of its cases and counted so far. -/
structure Report where
  caseLines : List String := []
  tally : Tally := {}

namespace Report

/-- Prints and counts one more case. -/
def add (r : Report) (name : String) (outcome : Outcome) : Report :=
  ⟨r.caseLines ++ [outcome.line name], r.tally.count outcome⟩

def lines (r : Report) : List String := r.caseLines ++ ["", r.tally.line]

section Run

variable (site : Site) (settings : Settings)

/-- Runs a variant in one scenario, or skips it where the host does not run the variant. -/
def addCase (v : Variant) (available : Bool) (r : Report) (s : Scenario) : Report :=
  let name := s.testName v
  if !available then r.add name .skipped
  else
    let verdict := s.run v.shape (v.subject site.host) settings (site.entropy v s)
    r.add name (.ofResult verdict.result)

/-- Runs a variant in some scenarios, unless its name lacks a given part. What the host runs is
looked up once. -/
def addVariant (part : Option String) (scenarios : List Scenario) (r : Report) (v : Variant) :
    Report :=
  if nameMatches part v.name then
    scenarios.foldl (addCase site settings v (site.available v)) r
  else r

/-- Runs the variants and scenarios whose names have given parts. -/
def ofVariants (variantPart scenarioPart : Option String) (variants : List Variant) : Report :=
  let scenarios := Scenario.all.filter fun s ↦ nameMatches scenarioPart s.key
  variants.foldl (addVariant site settings variantPart scenarios) {}

end Run

end Report

end QuantizedGemm.Conformance
