import QuantizedGemm.Conformance.Invocation

/-!
# Help and version

The texts that the conformance runner prints about itself. Options stand in one column and what they
do in another.
-/

namespace QuantizedGemm.Conformance

def programName : String := "igemm-conformance"

def versionLine : String := s!"{programName} 0.1.0"

/-- The options with their dashes and values, and what they do. -/
def optionTable : List (String × String) :=
  [("    --variant <SUBSTRING>", "Only run variants whose name contains this substring"),
   ("    --scenario <SUBSTRING>", "Only run scenarios whose name contains this substring"),
   ("    --seed <SEED>", "PRNG seed (overrides IGEMM_TEST_SEED)"),
   ("    --iterations <N>", "Iterations per configuration (overrides IGEMM_TEST_ITERATIONS)"),
   ("    --list", "List registered variants and exit"),
   ("    --log-level <LEVEL>",
    "Log level (trace, debug, info, warn, error) [default: warn]"),
   ("-h, --help", "Print help"),
   ("-V, --version", "Print version")]

def optionWidth : Nat := (optionTable.map fun row ↦ row.1.length).foldl max 0

def helpLines : List String :=
  ["Check QU8 IGEMM microkernels against the scalar reference", "",
   s!"Usage: {programName} [OPTIONS]", "", "Options:"] ++
    optionTable.map fun row ↦ "  " ++ padTo optionWidth row.1 ++ "  " ++ row.2

end QuantizedGemm.Conformance
