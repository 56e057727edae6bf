import QuantizedGemm.Log
import QuantizedGemm.Text.Blank
import QuantizedGemm.Text.Letter
import QuantizedGemm.Text.Numeral
import QuantizedGemm.Text.Quoted

/-!
# Settings of test runs

Three environment variables steer test runs: a fixed seed, a number of iterations that replaces the
one of every test case, and a switch that hides the vector extensions of the host. A fourth variable
holds a log filter and is no part of the settings.

## What cannot be used

A value that cannot be used is passed over with a warning, so that a stray variable never turns a
run into a failure. A variable whose content is not text counts as unset and earns no warning. A
count of zero iterations is dropped with a warning of its own, since a test without iterations would
pass whatever the kernel does.
-/

namespace QuantizedGemm

/-- The content of an environment variable. -/
inductive Variable where
  | unset
  /-- Bytes that are not the encoding of any text. -/
  | undecodable
  | text (value : String)
  deriving DecidableEq, Repr

def Variable.text? : Variable → Option String
  | text value => some value
  | _ => none

/-- The variables that test runs read. -/
structure Environment where
  seed : Variable := .unset
  iterations : Variable := .unset
  forceScalar : Variable := .unset
  logFilter : Variable := .unset
  deriving DecidableEq, Repr

namespace Environment

def seedName : String := "IGEMM_TEST_SEED"

/-- The name of the variable that sets the number of iterations. -/
def iterationsName : String := "IGEMM_TEST_ITERATIONS"

/-- The name of the variable that hides the vector extensions. -/
def forceScalarName : String := "IGEMM_FORCE_SCALAR"

def logFilterName : String := "RUST_LOG"

/-- Whether portable code is forced: the variable holds `1`, or `true` in any case of its letters,
and nothing around it. -/
def forcesScalar (e : Environment) : Bool :=
  match e.forceScalar.text? with
  | none => false
  | some v => v == "1" || Text.spells "true" v.toList

end Environment

/-- What a variable that should hold a number below `2 ^ 64` says, and the warning it earns. Blanks
around the number are allowed. -/
def readNumber (name : String) (v : Variable) : Option Nat × List LogRecord :=
  match v.text? with
  | none => (none, [])
  | some raw =>
    match Text.numeral? UInt64.size (Text.trimBlanks raw.toList) with
    | some n => (some n, [])
    | none =>
      let value := Text.quoted raw
      (none, [⟨.warn, s!"ignoring {name}={value}: not a valid value"⟩])

/-- A count of zero would disable testing: it is dropped with a warning. -/
def refuseZero (name : String) (n : Option Nat) : Option Nat × List LogRecord :=
  if n = some 0 then
    (none, [⟨.warn, s!"{name}=0 ignored: at least one iteration is required"⟩])
  else (n, [])

structure Settings where
  /-- The seed of the operand generator; a fresh one is drawn where this is `none`. -/
  seed : Option Nat := none
  /-- The number of iterations of every test case, in place of its own. -/
  iterations : Option Nat := none
  /-- Whether the vector extensions of the host are hidden. -/
  forceScalar : Bool := false
  deriving DecidableEq, Repr

namespace Settings

/-- Reads the environment, together with the warnings, those on the seed first. -/
def ofEnvironment (e : Environment) : Settings × List LogRecord :=
  let seed := readNumber Environment.seedName e.seed
  let count := readNumber Environment.iterationsName e.iterations
  let iterations := refuseZero Environment.iterationsName count.1
  (⟨seed.1, iterations.1, e.forcesScalar⟩, seed.2 ++ count.2 ++ iterations.2)

/-- Explicit values, where given, replace the ones at hand. -/
def override (s : Settings) (seed iterations : Option Nat) : Settings :=
  { s with seed := seed.or s.seed, iterations := iterations.or s.iterations }

end Settings

end QuantizedGemm
