import Mathlib.Data.Nat.Notation
import Mathlib.Logic.Basic
import QuantizedGemm.Oracle
import QuantizedGemm.Proofs.Outcome

/-!
# What the comparison decides

The oracle goes through the elements of an output row by row. It accepts an outcome if and only if
the call succeeded and every element is the reference of its accumulator
(`Oracle.Site.checkOutcome_eq_ok_iff`), and otherwise reports the first failure
(`Oracle.Site.checkOutcome_eq_error_iff`).

## What is compared

The specification names the accumulators of a problem, its quantization and the range of its test
case. It has no use for the functions by which the oracle computes what it expects and reports, so
that a mistake in these would not go unnoticed.

## The range

The range check comes before the comparison with the reference, but it can only name the failure:
an element out of range is never the expected one.
-/

namespace QuantizedGemm.Oracle

/-- What a call leaves behind: its own failure, or an output. -/
abbrev Outcome := EStateM.Result Failure Bytes Unit

namespace Site

variable (s : Site) (reference : Requantizer)

/-! ## Specification -/

/-- The outcome of the call with a given number, or of the derivation of its parameters. -/
def outcome (subject : Subject) (call : ℕ) : Outcome :=
  match subject.derive s.args with
  | .ok params => subject.kernel call (s.problem.call params) s.problem.freshOutput
  | .error e => .error (.refused e) s.problem.freshOutput

/-- The element in row `i` and column `j` is the reference of its accumulator. -/
def Agrees (output : Bytes) (i j : ℕ) : Prop :=
  ∃ acc, s.problem.accumulators[i * s.testCase.n + j]? = some acc ∧
    output[s.problem.outputPosition i j]? = some
      (reference acc s.quantization.scale s.quantization.zeroPoint s.testCase.qmin s.testCase.qmax)

/-- The call succeeded, and every element agrees. -/
def Passes : Outcome → Prop
  | .ok _ output => ∀ i < s.testCase.m, ∀ j < s.testCase.n, s.Agrees reference output i j
  | .error .. => False

/-- The first element that disagrees, row by row. -/
structure FirstDisagreement (output : Bytes) (i j : ℕ) : Prop where
  row : i < s.testCase.m
  column : j < s.testCase.n
  rowsBefore : ∀ i' < i, ∀ j' < s.testCase.n, s.Agrees reference output i' j'
  columnsBefore : ∀ j' < j, s.Agrees reference output i j'
  disagrees : ¬s.Agrees reference output i j

/-- The text that a disagreement is reported with: the tile, the sizes, the quantization, and where
in the run it is. -/
def reportText : String :=
  s!"Mr x Nr x Kr = {s.testCase.shape.mr} x {s.testCase.shape.nr} x {s.testCase.shape.kr}, " ++
    s!"M x N x K = {s.testCase.m} x {s.testCase.n} x {s.testCase.k}, ks = {s.testCase.ks}, " ++
    s!"requantization scale = {Style.plain.write s.quantization.scale}, " ++
    s!"output zero point = {s.quantization.zeroPoint}, seed = {s.seed}, iteration = {s.iteration}"

/-- The failure that an outcome is reported with. -/
inductive Reports : Outcome → Failure → Prop
  | kernel (e : Failure) (output : Bytes) : Reports (.error e output) e
  | outOfRange {output : Bytes} {i j : ℕ} {actual : UInt8}
      (first : s.FirstDisagreement reference output i j)
      (hactual : output[s.problem.outputPosition i j]? = some actual)
      (hrange : actual < s.testCase.qmin ∨ s.testCase.qmax < actual) :
      Reports (.ok () output) (.refused (.validation
        (.outOfRange i j actual s.testCase.qmin s.testCase.qmax s.reportText)))
  | mismatch {output : Bytes} {i j : ℕ} {actual : UInt8} {acc : Int32}
      (first : s.FirstDisagreement reference output i j)
      (hactual : output[s.problem.outputPosition i j]? = some actual)
      (hrange : s.testCase.qmin ≤ actual ∧ actual ≤ s.testCase.qmax)
      (hacc : s.problem.accumulators[i * s.testCase.n + j]? = some acc) :
      Reports (.ok () output) (.refused (.validation (.mismatch i j
        (reference acc s.quantization.scale s.quantization.zeroPoint s.testCase.qmin
          s.testCase.qmax)
        actual acc s.reportText)))

/-- Outcomes that differ between the elements of the output only. -/
inductive SameElements : Outcome → Outcome → Prop
  | error (e : Failure) (output output' : Bytes) : SameElements (.error e output) (.error e output')
  | ok {output output' : Bytes} (h : ∀ i < s.testCase.m, ∀ j < s.testCase.n,
      output[s.problem.outputPosition i j]? = output'[s.problem.outputPosition i j]?) :
      SameElements (.ok () output) (.ok () output')

/-! ## The comparison -/

/-- What the comparison makes of an outcome. -/
def checkOutcome : Outcome → Except Failure Unit
  | .ok _ output => s.checkOutput reference output
  | .error e _ => .error e

/-- The report of an element that disagrees. -/
def report (i j : ℕ) (actual : UInt8) : Failure :=
  .refused <| .validation <|
    if actual < s.testCase.qmin ∨ s.testCase.qmax < actual then
      .outOfRange i j actual s.testCase.qmin s.testCase.qmax s.context
    else .mismatch i j (s.expected reference i j) actual (s.accumulator i j) s.context

variable {s reference} {output : Bytes} {outcome : Outcome} {e : Failure} {i j : ℕ} {acc : Int32}

theorem outcome_eq {subject : Subject} {params : Params}
    (hderive : subject.derive s.args = .ok params) (call : ℕ) :
    s.outcome subject call =
      subject.kernel call (s.problem.call params) s.problem.freshOutput := by
  rw [Site.outcome, hderive]

theorem context_eq_reportText : s.context = s.reportText := by
  unfold context reportText
  simp only [String.append_assoc, toString]

theorem accumulator_eq (hacc : s.problem.accumulators[i * s.testCase.n + j]? = some acc) :
    s.accumulator i j = acc := by
  rw [Site.accumulator, Array.getD_eq_getD_getElem?, hacc, Option.getD_some]

theorem expected_eq (hacc : s.problem.accumulators[i * s.testCase.n + j]? = some acc) :
    s.expected reference i j = reference acc s.quantization.scale s.quantization.zeroPoint
      s.testCase.qmin s.testCase.qmax := by
  rw [Site.expected, accumulator_eq hacc]

theorem agrees_iff (hacc : s.problem.accumulators[i * s.testCase.n + j]? = some acc) :
    s.Agrees reference output i j ↔
      output[s.problem.outputPosition i j]? = some (s.expected reference i j) := by
  simp [Agrees, hacc, expected_eq hacc]

theorem agrees_congr {output' : Bytes}
    (h : output'[s.problem.outputPosition i j]? = output[s.problem.outputPosition i j]?) :
    s.Agrees reference output' i j ↔ s.Agrees reference output i j := by
  rw [Agrees, Agrees, h]

theorem checkOutput_eq_ok_iff : s.checkOutput reference output = .ok () ↔
    ∀ i < s.testCase.m, ∀ j < s.testCase.n, s.checkElement reference output i j = .ok () := by
  rw [checkOutput, forM_range_eq_ok_iff]
  simp only [forM_range_eq_ok_iff]

theorem checkOutput_eq_error_iff : s.checkOutput reference output = .error e ↔
    ∃ i < s.testCase.m,
      (∀ i' < i, ∀ j < s.testCase.n, s.checkElement reference output i' j = .ok ()) ∧
      ∃ j < s.testCase.n, (∀ j' < j, s.checkElement reference output i j' = .ok ()) ∧
        s.checkElement reference output i j = .error e := by
  rw [checkOutput, forM_range_eq_error_iff]
  simp only [forM_range_eq_ok_iff, forM_range_eq_error_iff]

/-- A reference whose outputs all lie in the range of the test case. -/
def InRange (s : Site) (reference : Requantizer) : Prop :=
  ∀ acc, s.testCase.qmin ≤ reference acc s.quantization.scale s.quantization.zeroPoint
      s.testCase.qmin s.testCase.qmax ∧
    reference acc s.quantization.scale s.quantization.zeroPoint s.testCase.qmin
      s.testCase.qmax ≤ s.testCase.qmax

section Element

variable {actual : UInt8} (hactual : output[s.problem.outputPosition i j]? = some actual)
  (hacc : s.problem.accumulators[i * s.testCase.n + j]? = some acc)
  (hmem : s.InRange reference)

include hactual hacc hmem

/-- The comparison of an element that is part of the output. No element out of range is the expected
one, so that the range check decides nothing. -/
theorem checkElement_eq :
    s.checkElement reference output i j =
      if actual = s.expected reference i j then .ok ()
      else .error (s.report reference i j actual) := by
  rw [checkElement, hactual, report]
  dsimp only
  by_cases hexpected : actual = s.expected reference i j
  · have hrange : ¬(actual < s.testCase.qmin ∨ s.testCase.qmax < actual) := by
      rw [hexpected, not_or, UInt8.not_lt, UInt8.not_lt, expected_eq hacc]
      exact hmem acc
    rw [if_neg hrange, if_neg (not_not.mpr hexpected), if_pos hexpected]
  · rw [if_neg hexpected]
    by_cases hrange : actual < s.testCase.qmin ∨ s.testCase.qmax < actual
    · rw [if_pos hrange, if_pos hrange]
    · rw [if_neg hrange, if_neg hrange, if_pos hexpected]

theorem checkElement_eq_ok_iff :
    s.checkElement reference output i j = .ok () ↔ s.Agrees reference output i j := by
  rw [checkElement_eq hactual hacc hmem, agrees_iff hacc, hactual, Option.some_inj]
  by_cases hexpected : actual = s.expected reference i j
  · exact iff_of_true (if_pos hexpected) hexpected
  · rw [if_neg hexpected]
    exact iff_of_false nofun hexpected

theorem checkElement_eq_error_iff :
    s.checkElement reference output i j = .error e ↔
      ¬s.Agrees reference output i j ∧ s.report reference i j actual = e := by
  rw [checkElement_eq hactual hacc hmem, agrees_iff hacc, hactual, Option.some_inj]
  by_cases hexpected : actual = s.expected reference i j
  · rw [if_pos hexpected]
    exact iff_of_false nofun fun h ↦ h.1 hexpected
  · rw [if_neg hexpected, and_iff_right hexpected, Except.error.injEq]

omit hmem in
/-- The report of the first element that disagrees is the one that is specified. -/
theorem reports_report (first : s.FirstDisagreement reference output i j) :
    s.Reports reference (.ok () output) (s.report reference i j actual) := by
  rw [report, context_eq_reportText, expected_eq hacc, accumulator_eq hacc]
  split_ifs with hrange
  · exact .outOfRange first hactual hrange
  · rw [not_or, UInt8.not_lt, UInt8.not_lt] at hrange
    exact .mismatch first hactual hrange hacc

end Element

theorem Reports.exists_first (h : s.Reports reference (.ok () output) e) :
    ∃ i j actual, s.FirstDisagreement reference output i j ∧
      output[s.problem.outputPosition i j]? = some actual ∧ s.report reference i j actual = e := by
  cases h with
  | outOfRange first hactual hrange =>
    refine ⟨_, _, _, first, hactual, ?_⟩
    rw [report, if_pos hrange, context_eq_reportText]
  | mismatch first hactual hrange hacc =>
    refine ⟨_, _, _, first, hactual, ?_⟩
    rw [← UInt8.not_lt, ← UInt8.not_lt, ← not_or] at hrange
    rw [report, if_neg hrange, context_eq_reportText, expected_eq hacc, accumulator_eq hacc]

theorem checkOutcome_of_passes (hmem : s.InRange reference) (h : s.Passes reference outcome) :
    s.checkOutcome reference outcome = .ok () := by
  cases outcome with
  | error e output => exact h.elim
  | ok _ output =>
    refine checkOutput_eq_ok_iff.mpr fun i hi j hj ↦ ?_
    obtain ⟨acc, hacc, hactual⟩ := h i hi j hj
    exact (checkElement_eq_ok_iff hactual hacc hmem).mpr ⟨acc, hacc, hactual⟩

section Outcome

variable (hmem : s.InRange reference)
  (hacc : ∀ i < s.testCase.m, ∀ j < s.testCase.n,
    ∃ acc, s.problem.accumulators[i * s.testCase.n + j]? = some acc)
  (hsize : ∀ output, outcome = .ok () output → ∀ i < s.testCase.m, ∀ j < s.testCase.n,
    ∃ actual, output[s.problem.outputPosition i j]? = some actual)

include hmem hacc hsize

theorem checkOutcome_eq_ok_iff :
    s.checkOutcome reference outcome = .ok () ↔ s.Passes reference outcome := by
  cases outcome with
  | error e output => exact iff_of_false nofun id
  | ok _ output =>
    refine checkOutput_eq_ok_iff.trans ?_
    refine forall₂_congr fun i hi ↦ forall₂_congr fun j hj ↦ ?_
    obtain ⟨actual, hactual⟩ := hsize output rfl i hi j hj
    obtain ⟨acc, hacc⟩ := hacc i hi j hj
    exact checkElement_eq_ok_iff hactual hacc hmem

theorem checkOutcome_eq_error_iff :
    s.checkOutcome reference outcome = .error e ↔ s.Reports reference outcome e := by
  cases outcome with
  | error e' output =>
    constructor
    · rintro ⟨⟩
      exact .kernel ..
    · rintro ⟨⟩
      rfl
  | ok _ output =>
    have hok : ∀ i < s.testCase.m, ∀ j < s.testCase.n,
        s.checkElement reference output i j = .ok () ↔ s.Agrees reference output i j := by
      intro i hi j hj
      obtain ⟨actual, hactual⟩ := hsize output rfl i hi j hj
      obtain ⟨acc, hacc⟩ := hacc i hi j hj
      exact checkElement_eq_ok_iff hactual hacc hmem
    refine checkOutput_eq_error_iff.trans ?_
    constructor
    · rintro ⟨i, hi, hrows, j, hj, hcolumns, herror⟩
      obtain ⟨actual, hactual⟩ := hsize output rfl i hi j hj
      obtain ⟨acc, hacc⟩ := hacc i hi j hj
      obtain ⟨hdisagrees, rfl⟩ := (checkElement_eq_error_iff hactual hacc hmem).mp herror
      refine reports_report hactual hacc
        ⟨hi, hj, fun i' hi' j' hj' ↦ ?_, fun j' hj' ↦ ?_, hdisagrees⟩
      · exact (hok i' (Nat.lt_trans hi' hi) j' hj').mp (hrows i' hi' j' hj')
      · exact (hok i hi j' (Nat.lt_trans hj' hj)).mp (hcolumns j' hj')
    · intro hreports
      obtain ⟨i, j, actual, first, hactual, hreport⟩ := hreports.exists_first
      obtain ⟨hi, hj, hrows, hcolumns, hdisagrees⟩ := first
      obtain ⟨acc, hacc⟩ := hacc i hi j hj
      refine ⟨i, hi, fun i' hi' j' hj' ↦ ?_, j, hj, fun j' hj' ↦ ?_, ?_⟩
      · exact (hok i' (Nat.lt_trans hi' hi) j' hj').mpr (hrows i' hi' j' hj')
      · exact (hok i hi j' (Nat.lt_trans hj' hj)).mpr (hcolumns j' hj')
      · exact (checkElement_eq_error_iff hactual hacc hmem).mpr ⟨hdisagrees, hreport⟩

end Outcome

/-- The comparison reads the elements alone. -/
theorem checkOutcome_congr {outcome' : Outcome} (h : s.SameElements outcome outcome') :
    s.checkOutcome reference outcome = s.checkOutcome reference outcome' := by
  cases h with
  | error e output output' => rfl
  | ok h =>
    refine forM_range_congr fun i hi ↦ forM_range_congr fun j hj ↦ ?_
    rw [checkElement, checkElement, h i hi j hj]

end Site

theorem judge_eq {subject : Subject} {s : Site} {params : Params}
    (hderive : subject.derive s.args = .ok params) (call : ℕ) :
    judge subject s call =
      ⟨call + 1, s.checkOutcome subject.reference (s.outcome subject call)⟩ := by
  rw [judge, hderive, Site.outcome_eq hderive]
  dsimp only
  cases subject.kernel call (s.problem.call params) s.problem.freshOutput with
  | ok _ output => rfl
  | error e output => rfl

end QuantizedGemm.Oracle
