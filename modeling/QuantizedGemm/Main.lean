import QuantizedGemm.Conformance.CommandLine

/-!
# The conformance runner

The program around `Conformance.invoke`: it looks up where it runs and prints what `invoke` answers.
-/

open QuantizedGemm

/-- The number of logical cores, as far as the system tells. -/
def coreCount : IO Nat := do
  try
    let lines ← IO.FS.lines "/proc/cpuinfo"
    pure (max 1 (lines.toList.countP fun line ↦ line.startsWith "processor"))
  catch _ => pure 1

/-- The content of an environment variable. -/
def lookUp (name : String) : IO Variable := do
  pure (((← IO.getEnv name).map Variable.text).getD .unset)

/-- The environment variables of test runs. -/
def currentEnvironment : IO Environment := do
  pure {
    seed := ← lookUp Environment.seedName
    iterations := ← lookUp Environment.iterationsName
    forceScalar := ← lookUp Environment.forceScalarName
    logFilter := ← lookUp Environment.logFilterName }

/-- Seeds that nobody chose, all from one random number. -/
def freshSeeds : IO (Variant → Scenario → Nat → Nat) := do
  let number := (← IO.getRandomBytes 8).foldl (fun n b ↦ 256 * n + b.toNat) 0
  pure fun v s n ↦ (hash (number, s.testName v, n)).toNat

/-- Runs the program with its arguments. -/
def main (arguments : List String) : IO UInt32 := do
  let site : Conformance.Site := {
    host := .x86Host (← coreCount)
    environment := ← currentEnvironment
    entropy := ← freshSeeds }
  let output := Conformance.invoke .standard site arguments
  for line in output.lines do IO.println line
  for line in output.complaints do IO.eprintln line
  pure output.exitCode
