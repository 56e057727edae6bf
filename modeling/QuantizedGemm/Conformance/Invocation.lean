import QuantizedGemm.Conformance.Report

/-!
# Invocations of the conformance runner

What the program prints and which code it exits with, as a function of where it runs and of its
arguments.

## What is left to others

How arguments are read, and which log filters there are, is not for this program to say. Two
functions say it (`Readers`): one takes the arguments to options, or to what is printed where they
are no options for a run; the other one tells whether a log filter can be read. The program only
decides what follows from their answers.

## What goes before what

Arguments are read first, then the log filter, and a run begins only after both. A log filter that
cannot be read ends the program with code 1, a case that fails does so too. The options precede the
environment, except that a log filter of the environment that can be read precedes the one of the
options.
-/

namespace QuantizedGemm.Conformance

/-- What the program prints, on its output and beside it, and the code it exits with. The log is
kept apart. -/
structure Output where
  lines : List String := []
  complaints : List String := []
  exitCode : UInt32 := 0
  deriving DecidableEq, Repr

structure Options where
  /-- Part of the names of the variants to run. -/
  variant : Option String := none
  /-- Part of the names of the scenarios to run. -/
  scenario : Option String := none
  seed : Option Nat := none
  iterations : Option Nat := none
  /-- The variants are listed, and no scenario is run. -/
  list : Bool := false
  logLevel : String := "warn"
  deriving DecidableEq, Repr

inductive FilterRefusal where
  | malformed
  /-- The reader of the filter ran into a fault, which ends the program. -/
  | faulted
  deriving DecidableEq, Repr

/-- How arguments and log filters are read. -/
structure Readers where
  options : List String → Except Output Options
  logFilter : String → Except FilterRefusal Unit

/-! ## Texts -/

/-- The first line, on the host and the variant it prefers. -/
def Site.hostLine (s : Site) (preferred : Variant) : String :=
  let caps := (s.host.probe s.environment.forcesScalar).value
  let forced := if s.environment.forcesScalar then " (forced scalar)" else ""
  s!"host {caps.summary}{forced} preferred={preferred.name}"

/-- Fills up a text with spaces. A text of the width or more stays as it is. -/
def padTo (width : Nat) (s : String) : String := s ++ "".pushn ' ' (width - s.length)

/-- A tile shape with all its parts. -/
def fullShape (t : TileShape) : String := s!"{t.mr}x{t.nr}c{t.kr}s{t.sr}"

def Site.listLine (s : Site) (v : Variant) : String :=
  let status := if s.available v then "available" else "unavailable"
  s!"{padTo 60 v.name} {v.isa.tag} {fullShape v.shape} {status}"

/-! ## Runs -/

namespace Options

variable (o : Options)

/-- The settings of the environment, where the options say nothing else. -/
def settings (e : Environment) : Settings :=
  (Settings.ofEnvironment e).1.override o.seed o.iterations

/-- The report of a run with some options. -/
def report (s : Site) (r : Registry) : Report :=
  .ofVariants s (o.settings s.environment) o.variant o.scenario r.variants

/-- Lists the variants, or runs cases. -/
def act (s : Site) : Output :=
  let registry := Registry.create.value
  match (registry.selectBest s.host s.environment.forcesScalar).value.1 with
  | .error e => { complaints := [s!"Error: {e.message}"], exitCode := 1 }
  | .ok preferred =>
    let first := s.hostLine preferred
    if o.list then { lines := first :: registry.variants.map s.listLine }
    else
      let report := o.report s registry
      { lines := first :: report.lines
        complaints :=
          if report.tally.total = 0 then ["no test cases matched the filters"] else []
        exitCode := report.tally.exitCode }

variable (readers : Readers)

/-- The log filter in force: the one of the environment, or the one of the options where that is no
text or malformed. -/
def logFilter (e : Environment) : String :=
  match e.logFilter.text? with
  | none => o.logLevel
  | some filter =>
    match readers.logFilter filter with
    | .error .malformed => o.logLevel
    | _ => filter

/-- Acts on the options, provided that the log filter can be read. -/
def run (s : Site) : Output :=
  let filter := o.logFilter readers s.environment
  match readers.logFilter filter with
  | .ok () => o.act s
  | .error .malformed => { complaints := [s!"Error: invalid log level: {filter}"], exitCode := 1 }
  | .error .faulted => { complaints := [s!"fault in the log level: {filter}"], exitCode := 101 }

end Options

/-- What the program does with its arguments. -/
def invoke (readers : Readers) (s : Site) (arguments : List String) : Output :=
  match readers.options arguments with
  | .error output => output
  | .ok o => o.run readers s

end QuantizedGemm.Conformance
