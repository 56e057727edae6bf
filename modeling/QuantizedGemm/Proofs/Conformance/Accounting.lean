import Mathlib.Data.Fintype.Basic
import Mathlib.Data.List.Forall2
import Mathlib.Data.List.Infix
import Mathlib.Data.List.ProdSigma
import QuantizedGemm.Conformance.Invocation
import QuantizedGemm.Proofs.Registry.Session
import QuantizedGemm.Proofs.Scenario.Passing

/-!
# The accounts of a conformance run

A run prints one line for each case, and each line begins with a mark that tells how the case ended.
Lines are recognised by their marks: no other line of the output begins with one, so that the three
numbers at the end can be checked against the output itself.

## The invariant

The invariant of the two nested loops is `Report.Covers`: the lines printed so far belong to the
cases gone through so far, in order, and the counters say how many of them have each mark. A case
keeps it (`Report.Covers.addCase`), and by induction the scenarios of a variant and then the
variants do.

## What a run is given

Nothing is assumed of how arguments and log filters are read, nor of the seeds that are drawn: the
accounts are right for all readers, and for every seed that each test case may get. Yet whether a
run comes about at all depends on its log filter. Where that one cannot be read, the program ends
before its first line (`malformed_logFilter_unaccounted`).

## Failures

A report has room for every failure of a case, and a fault is reported like a refusal. But the
catalogue passes its scenarios, so that of all the failures only an end of the redraws is ever
reported (`CaseLine.eq_exhausted`).
-/

namespace QuantizedGemm.Conformance

/-! ## Filters -/

/-- Whether a name has a given part. Every name has one that is not given. -/
def HasPart (part : Option String) (name : String) : Prop :=
  ∀ p ∈ part, p.toList <:+: name.toList

instance (part : Option String) (name : String) : Decidable (HasPart part name) :=
  inferInstanceAs (Decidable (∀ p ∈ part, p.toList <:+: name.toList))

@[simp] theorem occursIn_iff (part text : List Char) :
    occursIn part text = true ↔ part <:+: text := by
  induction text with
  | nil => simp [occursIn]
  | cons c cs ih =>
    rw [occursIn, Bool.or_eq_true, List.isPrefixOf_iff_prefix, ih, List.infix_cons_iff]

theorem nameMatches_eq (part : Option String) (name : String) :
    nameMatches part name = decide (HasPart part name) := by
  rw [Bool.eq_iff_iff, decide_eq_true_iff, nameMatches, HasPart, Option.all_eq_true]
  exact forall₂_congr fun p _ ↦ occursIn_iff p.toList name.toList

namespace Options

variable (o : Options)

/-- The variants that some options select, in the order of the catalogue. -/
def variants : List Variant := Variant.catalogue.filter fun v ↦ HasPart o.variant v.name

/-- The scenarios that some options select. -/
def scenarios : List Scenario := Scenario.all.filter fun s ↦ HasPart o.scenario s.key

end Options

/-! ## Marks -/

/-- What the line of a case begins with. -/
inductive Mark where
  | pass
  | fail
  | skip
  deriving DecidableEq

namespace Mark

instance : Fintype Mark := ⟨{pass, fail, skip}, by rintro ⟨⟩ <;> decide⟩

def word : Mark → String
  | pass => "PASS"
  | fail => "FAIL"
  | skip => "SKIP"

def Begins (mark : Mark) (line : String) : Prop := (mark.word ++ " ").toList <+: line.toList

instance (mark : Mark) (line : String) : Decidable (mark.Begins line) :=
  inferInstanceAs (Decidable ((mark.word ++ " ").toList <+: line.toList))

end Mark

def IsCaseLine (line : String) : Prop := ∃ mark : Mark, mark.Begins line

instance (line : String) : Decidable (IsCaseLine line) :=
  inferInstanceAs (Decidable (∃ mark : Mark, mark.Begins line))

def Outcome.mark : Outcome → Mark
  | passed => .pass
  | failed _ => .fail
  | skipped => .skip

@[simp] theorem begins_line_iff (mark : Mark) (outcome : Outcome) (name : String) :
    mark.Begins (outcome.line name) ↔ outcome.mark = mark := by
  cases mark <;> cases outcome <;>
    simp [Mark.Begins, Mark.word, Outcome.line, Outcome.mark, toString]

theorem isCaseLine_line (outcome : Outcome) (name : String) : IsCaseLine (outcome.line name) :=
  ⟨outcome.mark, (begins_line_iff _ outcome name).mpr rfl⟩

theorem IsCaseLine.head? {line : String} (h : IsCaseLine line) :
    line.toList.head? ∈ [some 'P', some 'F', some 'S'] := by
  obtain ⟨mark, rest, hrest⟩ := h
  rw [← hrest]
  cases mark <;> simp [Mark.word]

theorem not_isCaseLine_hostLine (s : Site) (preferred : Variant) :
    ¬ IsCaseLine (s.hostLine preferred) := by
  intro h
  have hhead : (s.hostLine preferred).toList.head? = some 'h' := by
    simp [Site.hostLine, toString]
  simpa [hhead] using h.head?

theorem not_isCaseLine_empty : ¬ IsCaseLine "" := fun h ↦ by simpa using h.head?

theorem not_isCaseLine_tally (t : Tally) : ¬ IsCaseLine t.line := by
  intro h
  obtain ⟨c, cs, hdigits⟩ :=
    List.exists_cons_of_ne_nil (Nat.toDigits_ne_nil (n := t.passed) (b := 10))
  have hdigit : c.isDigit :=
    Nat.isDigit_of_mem_toDigits (n := t.passed) (by decide) le_rfl (by simp [hdigits])
  have hhead : t.line.toList.head? = some c := by
    simp [Tally.line, toString, Nat.repr, hdigits]
  have hc : c = 'P' ∨ c = 'F' ∨ c = 'S' := by simpa [hhead] using h.head?
  rcases hc with rfl | rfl | rfl <;> simp at hdigit

def Tally.number (t : Tally) : Mark → ℕ
  | .pass => t.passed
  | .fail => t.failed
  | .skip => t.skipped

theorem Tally.number_count (t : Tally) (outcome : Outcome) (mark : Mark) :
    (t.count outcome).number mark = t.number mark + if outcome.mark = mark then 1 else 0 := by
  cases outcome <;> cases mark <;> rfl

theorem Tally.total_count (t : Tally) (outcome : Outcome) :
    (t.count outcome).total = t.total + 1 := by
  cases outcome <;> simp only [count, total] <;> omega

/-! ## Cases -/

section Cases

variable (s : Site) (settings : Settings) (c : Variant × Scenario)

/-- What the run of a variant in a scenario returns. -/
def caseResult : Except Failure Unit :=
  (c.2.run c.1.shape (c.1.subject s.host) settings (s.entropy c.1 c.2)).result

/-- A line that reports a case. Its mark says whether the host runs the variant in this environment
and, if so, what the run of the case returned. -/
structure CaseLine (line : String) : Prop where
  skip : Mark.skip.Begins line ↔ Registry.runs s.host s.environment c.1 = false
  pass : Mark.pass.Begins line ↔
    Registry.runs s.host s.environment c.1 = true ∧ caseResult s settings c = .ok ()
  fail : Mark.fail.Begins line ↔
    Registry.runs s.host s.environment c.1 = true ∧ ∃ cause, caseResult s settings c = .error cause
  text : line = s!"SKIP {c.2.testName c.1}" ∨ line = s!"PASS {c.2.testName c.1}" ∨
    ∃ cause, caseResult s settings c = .error cause ∧
      line = s!"FAIL {c.2.testName c.1}: {cause.message}"

/-- How a case ends. -/
def caseOutcome : Outcome :=
  if Registry.runs s.host s.environment c.1 then .ofResult (caseResult s settings c) else .skipped

theorem caseLine_line :
    CaseLine s settings c ((caseOutcome s settings c).line (c.2.testName c.1)) := by
  constructor
  case' skip | pass | fail => rw [begins_line_iff]
  all_goals
    unfold caseOutcome
    cases Registry.runs s.host s.environment c.1 <;>
      cases caseResult s settings c <;> simp [Outcome.ofResult, Outcome.mark, Outcome.line]

variable {s settings c}

/-- What the host runs does not fail, as long as there are redraws. -/
theorem passes_caseResult (hv : c.1 ∈ Variant.catalogue)
    (hruns : Registry.runs s.host s.environment c.1 = true) :
    PassesOrExhausts (caseResult s settings c) :=
  Scenario.passes_run hv (Registry.supports_of_runs hruns) ..

/-- A case of the catalogue is only ever reported as failed because it ran out of redraws: neither a
kernel nor a check nor a plain operation is to blame. -/
theorem CaseLine.eq_exhausted {line : String} (h : CaseLine s settings c line)
    (hv : c.1 ∈ Variant.catalogue) (hfail : Mark.fail.Begins line) :
    line = s!"FAIL {c.2.testName c.1}: {Fault.exhausted.message}" := by
  obtain ⟨hruns, cause, hcause⟩ := h.fail.mp hfail
  rcases h.text with rfl | rfl | ⟨cause', hcause', hline⟩
  · cases (begins_line_iff .fail .skipped (c.2.testName c.1)).mp hfail
  · cases (begins_line_iff .fail .passed (c.2.testName c.1)).mp hfail
  · rcases passes_caseResult hv hruns with hok | hexhausted
    · cases hok.symm.trans hcause'
    · cases hexhausted.symm.trans hcause'
      exact hline

end Cases

/-! ## Reports -/

namespace Report

/-- A report that has come through some cases. Its lines belong to them, in order, and its tally
says how many of the lines begin with each mark. -/
structure Covers (s : Site) (settings : Settings) (cases : List (Variant × Scenario)) (r : Report) :
    Prop where
  lines : List.Forall₂ (CaseLine s settings) cases r.caseLines
  marked : ∀ line ∈ r.caseLines, IsCaseLine line
  numbers (mark : Mark) : r.tally.number mark = r.caseLines.countP (mark.Begins ·)
  total : r.tally.total = r.caseLines.length

variable {s : Site} {settings : Settings} {cases : List (Variant × Scenario)} {r : Report}

theorem covers_empty (s : Site) (settings : Settings) : Covers s settings [] {} :=
  ⟨.nil, nofun, fun mark ↦ by cases mark <;> rfl, rfl⟩

theorem addCase_eq (v : Variant) (scenario : Scenario) :
    r.addCase s settings v (s.available v) scenario =
      r.add (scenario.testName v) (caseOutcome s settings (v, scenario)) := by
  rw [addCase, Site.available, Registry.isAvailable_eq, caseOutcome]
  cases Registry.runs s.host s.environment v <;> rfl

/-- A case adds one line and counts it under the mark that it begins with. -/
theorem Covers.addCase (h : Covers s settings cases r) (v : Variant) (scenario : Scenario) :
    Covers s settings (cases ++ [(v, scenario)])
      (r.addCase s settings v (s.available v) scenario) := by
  rw [addCase_eq]
  constructor
  case lines =>
    exact List.rel_append h.lines (.cons (caseLine_line s settings (v, scenario)) .nil)
  case marked =>
    simp only [add, List.mem_append, List.mem_singleton]
    rintro line (hline | rfl)
    · exact h.marked line hline
    · exact isCaseLine_line _ _
  case numbers =>
    intro mark
    simp only [add, Tally.number_count, h.numbers, List.countP_append, List.countP_singleton,
      begins_line_iff, decide_eq_true_iff]
  case total =>
    simp only [add, Tally.total_count, h.total, List.length_append, List.length_singleton]

theorem Covers.foldl_addCase (h : Covers s settings cases r) (v : Variant)
    (scenarios : List Scenario) : Covers s settings (cases ++ scenarios.map (v, ·))
      (scenarios.foldl (Report.addCase s settings v (s.available v)) r) := by
  induction scenarios generalizing cases r with
  | nil => simpa using h
  | cons scenario rest ih => simpa using ih (h.addCase v scenario)

theorem Covers.foldl_addVariant (h : Covers s settings cases r) (part : Option String)
    (scenarios : List Scenario) (variants : List Variant) :
    Covers s settings (cases ++ (variants.filter fun v ↦ HasPart part v.name) ×ˢ scenarios)
      (variants.foldl (addVariant s settings part scenarios) r) := by
  induction variants generalizing cases r with
  | nil => simpa using h
  | cons v rest ih =>
    rw [List.foldl_cons, addVariant, nameMatches_eq]
    by_cases hpart : HasPart part v.name
    · simpa [hpart, List.product_cons] using ih (h.foldl_addCase v scenarios)
    · simpa [hpart] using ih h

/-- A run comes through all pairs of a variant and a scenario whose names have the given parts. -/
theorem covers_ofVariants (s : Site) (settings : Settings)
    (variantPart scenarioPart : Option String) (variants : List Variant) :
    Covers s settings
      ((variants.filter fun v ↦ HasPart variantPart v.name) ×ˢ
        (Scenario.all.filter fun c ↦ HasPart scenarioPart c.key))
      (ofVariants s settings variantPart scenarioPart variants) := by
  simpa only [ofVariants, nameMatches_eq, List.nil_append] using
    (covers_empty s settings).foldl_addVariant variantPart _ variants

end Report

/-! ## Invocations -/

namespace Output

variable (output : Output)

/-- The lines that report cases. -/
def caseLines : List String := output.lines.filter (IsCaseLine ·)

def number (mark : Mark) : ℕ := output.lines.countP (mark.Begins ·)

/-- A line with the three numbers. -/
def summary : String :=
  s!"{output.number .pass} passed, {output.number .fail} failed, {output.number .skip} skipped"

theorem number_eq_countP_caseLines (mark : Mark) :
    output.number mark = output.caseLines.countP (mark.Begins ·) := by
  rw [number, caseLines, List.countP_filter]
  refine List.countP_congr fun line _ ↦ ?_
  simp only [decide_eq_true_eq, Bool.and_eq_true]
  exact ⟨fun h ↦ ⟨h, mark, h⟩, And.left⟩

end Output

/-- The accounts of a run with some options are right. Between the line on the host and the one with
the numbers stand the lines of the selected cases, in order, and no other line reports a case. The
numbers are those of the lines with each mark, and the exit code tells whether a line reports a
failure. -/
structure Accounts (s : Site) (o : Options) (output : Output) : Prop where
  lines : ∃ preferred, (Registry.supported s.host s.environment).head? = some preferred ∧
    output.lines = s.hostLine preferred :: (output.caseLines ++ ["", output.summary])
  cases : List.Forall₂ (CaseLine s (o.settings s.environment)) (o.variants ×ˢ o.scenarios)
    output.caseLines
  total : output.number .pass + output.number .fail + output.number .skip =
    o.variants.length * o.scenarios.length
  exitCode : output.exitCode = 0 ↔ ∀ line ∈ output.lines, ¬ Mark.fail.Begins line

theorem filter_isCaseLine_lines {r : Report} (hmarked : ∀ line ∈ r.caseLines, IsCaseLine line)
    (s : Site) (preferred : Variant) :
    (s.hostLine preferred :: r.lines).filter (IsCaseLine ·) = r.caseLines := by
  simpa [Report.lines, not_isCaseLine_hostLine, not_isCaseLine_empty, not_isCaseLine_tally]
    using hmarked

/-- A run prefers some variant, and its report follows the line on the host. -/
theorem exists_act_eq (s : Site) {o : Options} (hlist : o.list = false) :
    ∃ preferred, (Registry.supported s.host s.environment).head? = some preferred ∧
      (o.act s).lines = s.hostLine preferred :: (o.report s Registry.create.value).lines ∧
      (o.act s).exitCode = (o.report s Registry.create.value).tally.exitCode := by
  obtain ⟨place, preferred, hfirst⟩ := Registry.exists_first s.host s.environment
  have hpick : Registry.create.value.selectBest s.host s.environment.forcesScalar = _ :=
    Registry.selectBest_of_picked_eq_none rfl hfirst
  refine ⟨preferred, hfirst.head?_filter, ?_, ?_⟩ <;> simp [Options.act, hpick, hlist]

@[simp] theorem Tally.exitCode_eq_zero_iff (t : Tally) : t.exitCode = 0 ↔ t.number .fail = 0 := by
  by_cases hfailed : t.failed = 0 <;> simp [exitCode, number, hfailed]

/-- **A conformance run keeps its accounts.** However arguments and log filters are read, whenever
the arguments are options that ask for no list and the log filter in force can be read, the output
has one line for each selected case and numbers that are those of the lines, and the exit code is
zero just if no line reports a failure. -/
theorem invoke_accounts (readers : Readers) (s : Site) (arguments : List String) (o : Options)
    (hparse : readers.options arguments = .ok o) (hlist : o.list = false)
    (hlog : readers.logFilter (o.logFilter readers s.environment) = .ok ()) :
    Accounts s o (invoke readers s arguments) := by
  have hinvoke : invoke readers s arguments = o.act s := by
    simp only [invoke, hparse, Options.run, hlog]
  obtain ⟨preferred, hhead, hlines, hexit⟩ := exists_act_eq s hlist
  rw [hinvoke]
  -- the report covers the selected cases, and its lines are the marked ones of the output
  have hcovers : (o.report s Registry.create.value).Covers s (o.settings s.environment)
      (o.variants ×ˢ o.scenarios) := Report.covers_ofVariants ..
  have hcase : (o.act s).caseLines = (o.report s Registry.create.value).caseLines := by
    rw [Output.caseLines, hlines, filter_isCaseLine_lines hcovers.marked]
  have hnumber (mark : Mark) :
      (o.act s).number mark = (o.report s Registry.create.value).tally.number mark := by
    rw [Output.number_eq_countP_caseLines, hcase, hcovers.numbers]
  constructor
  case lines =>
    refine ⟨preferred, hhead, ?_⟩
    rw [Output.summary, hcase, hlines, hnumber, hnumber, hnumber]
    rfl
  case cases =>
    rw [hcase]
    exact hcovers.lines
  case total =>
    rw [hnumber, hnumber, hnumber, ← List.length_product, hcovers.lines.length_eq]
    exact hcovers.total
  case exitCode =>
    rw [hexit, Tally.exitCode_eq_zero_iff, ← hnumber, Output.number, List.countP_eq_zero]
    simp only [decide_eq_true_eq]

/-- Readers of a few options in one order, and of log filters that are levels. -/
def sampleReaders : Readers where
  options
    | ["--variant", variant, "--log-level", level] =>
      .ok { variant := some variant, logLevel := level }
    | ["--variant", variant, "--scenario", scenario, "--log-level", level] =>
      .ok { variant := some variant, scenario := some scenario, logLevel := level }
    | arguments => .error { complaints := arguments, exitCode := 2 }
  logFilter filter :=
    if filter ∈ ["trace", "debug", "info", "warn", "error", "off"] then .ok ()
    else .error .malformed

/-- A host on which portable code is forced. The log filter of the environment is malformed and
gives way to the one of the options. -/
def forcedSite : Site where
  host := .x86Host 4
  environment := { forceScalar := .text "1", logFilter := .text "a=b=c" }
  entropy _ _ number := 5 * number

theorem forcedSite_accounts :
    let arguments := ["--variant", "2x4c8", "--scenario", "qm", "--log-level", "off"]
    let o : Options := { variant := some "2x4c8", scenario := some "qm", logLevel := "off" }
    sampleReaders.options arguments = .ok o ∧ o.list = false ∧
      sampleReaders.logFilter (o.logFilter sampleReaders forcedSite.environment) = .ok () ∧
      o.scenarios = [.qmin, .qmax] ∧
      Accounts forcedSite o (invoke sampleReaders forcedSite arguments) :=
  ⟨rfl, rfl, rfl, by decide +kernel, invoke_accounts _ _ _ _ rfl rfl rfl⟩

/-- Where the log filter cannot be read nothing is printed, and the code is one with no failure. -/
theorem malformed_logFilter_unaccounted :
    let s : Site := ⟨.x86Host 1, {}, fun _ _ _ ↦ 0⟩
    let arguments := ["--variant", "zzz", "--log-level", "a=b"]
    let o : Options := { variant := some "zzz", logLevel := "a=b" }
    sampleReaders.options arguments = .ok o ∧ o.list = false ∧
      (invoke sampleReaders s arguments).lines = [] ∧
      (invoke sampleReaders s arguments).exitCode = 1 ∧
      ¬ Accounts s o (invoke sampleReaders s arguments) := by
  intro s arguments o
  have hlines : (invoke sampleReaders s arguments).lines = [] := rfl
  refine ⟨rfl, rfl, hlines, rfl, fun h ↦ ?_⟩
  obtain ⟨preferred, -, hframed⟩ := h.lines
  simp [hlines] at hframed

end QuantizedGemm.Conformance
