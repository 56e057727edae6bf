import QuantizedGemm.OutputQuantization
import QuantizedGemm.Problem
import QuantizedGemm.Random.ChaCha
import QuantizedGemm.Variant

/-!
# The oracle

The oracle runs a kernel on the problems of a test case and compares every output with the reference
for its accumulator. It stops at the first failure: the kernel's own, or an output outside the
range, or one that is not the expected one, in the order of iterations, rows and columns.

## Subjects

It knows nothing of the kernel. The subject of a test may act differently from call to call, so its
kernel is a function of the number of the call, and a test hands the number on from call to call.

## Sites

A `Site` is where a comparison takes place: a problem with its test case, its quantization, and the
seed and the iteration that it came from. A disagreement is reported with all of these.
-/

namespace QuantizedGemm

/-- What is tested: a kernel for each call, the parameters it takes, and the reference it should
agree with. -/
structure Subject where
  kernel : Nat → Kernel
  derive : QuantizationArgs → Except Error Params
  reference : Requantizer

def Variant.subject (v : Variant) (host : Capabilities) : Subject :=
  ⟨fun _ ↦ v.kernel host, v.derive, v.reference⟩

/-- How a test ended, and the number of the call that would follow. -/
structure Verdict where
  calls : Nat
  result : Except Failure Unit

def Problem.call (p : Problem) (params : Params) : Call where
  mr := p.m
  nc := p.n
  kc := p.k
  ks := p.ks
  view := p.view
  weights := p.packed
  cmStride := p.cmStride
  cnStride := p.cnStride
  params := params

def Problem.quantization (p : Problem) : OutputQuantization :=
  .ofAccumulators p.accumulators.toList

def Problem.freshOutput (p : Problem) : Bytes := Array.replicate p.outputLength fillByte

namespace Oracle

/-- The redraws that are allowed for constant bytes. -/
def defaultAttempts : Nat := 1000

/-- Where a comparison takes place. -/
structure Site where
  testCase : TestCase
  problem : Problem
  quantization : OutputQuantization
  seed : Nat
  iteration : Nat

namespace Site

variable (s : Site)

/-- What a disagreement is reported with. -/
def context : String :=
  let t := s.testCase
  let tile := s!"Mr x Nr x Kr = {t.shape.mr} x {t.shape.nr} x {t.shape.kr}"
  let size := s!"M x N x K = {t.m} x {t.n} x {t.k}, ks = {t.ks}"
  let quantization := s!"requantization scale = {Style.plain.write s.quantization.scale}, " ++
    s!"output zero point = {s.quantization.zeroPoint}"
  s!"{tile}, {size}, {quantization}, seed = {s.seed}, iteration = {s.iteration}"

/-- The arguments of the parameters. -/
def args : QuantizationArgs where
  kernelZeroPoint := s.testCase.bZeroPoint
  scale := s.quantization.scale
  outputZeroPoint := s.quantization.zeroPoint
  outputMin := s.testCase.qmin
  outputMax := s.testCase.qmax

def accumulator (i j : Nat) : Int32 := s.problem.accumulators.getD (i * s.testCase.n + j) 0

/-- The output that the reference gives for an element. -/
def expected (reference : Requantizer) (i j : Nat) : UInt8 :=
  reference (s.accumulator i j) s.quantization.scale s.quantization.zeroPoint s.testCase.qmin
    s.testCase.qmax

/-- The output of an element lies in the range, and is the expected one. -/
def checkElement (reference : Requantizer) (output : Bytes) (i j : Nat) : Except Failure Unit :=
  match output[s.problem.outputPosition i j]? with
  | none => .error (.fault .outOfBounds)
  | some actual =>
    if actual < s.testCase.qmin ∨ s.testCase.qmax < actual then
      .error (.refused (.validation
        (.outOfRange i j actual s.testCase.qmin s.testCase.qmax s.context)))
    else
      let expected := s.expected reference i j
      if actual ≠ expected then
        .error (.refused (.validation
          (.mismatch i j expected actual (s.accumulator i j) s.context)))
      else .ok ()

/-- Every element of the output is right. -/
def checkOutput (reference : Requantizer) (output : Bytes) : Except Failure Unit :=
  (List.range s.testCase.m).forM fun i ↦
    (List.range s.testCase.n).forM fun j ↦ s.checkElement reference output i j

end Site

/-- Runs the subject on one problem, as the call of a given number. -/
def judge (subject : Subject) (s : Site) (call : Nat) : Verdict :=
  match subject.derive s.args with
  | .error e => ⟨call, .error (.refused e)⟩
  | .ok params =>
    match subject.kernel call (s.problem.call params) s.problem.freshOutput with
    | .error e _ => ⟨call + 1, .error e⟩
    | .ok _ output => ⟨call + 1, s.checkOutput subject.reference output⟩

def runIterations {σ : Type} [WordSource σ] (attempts : Nat) (t : TestCase) (subject : Subject)
    (seed : Nat) : (remaining iteration call : Nat) → σ → Verdict
  | 0, _, call, _ => ⟨call, .ok ()⟩
  | remaining + 1, iteration, call, source =>
    match (Problem.generate attempts t).run source with
    | .error e => ⟨call, .error e⟩
    | .ok (problem, source) =>
      let verdict := judge subject ⟨t, problem, problem.quantization, seed, iteration⟩ call
      match verdict.result with
      | .error _ => verdict
      | .ok _ =>
        runIterations attempts t subject seed remaining (iteration + 1) verdict.calls source

/-- Tests the subject on a test case, drawing from a source of words. -/
def tryTestFrom {σ : Type} [WordSource σ] (attempts : Nat) (t : TestCase) (subject : Subject)
    (seed call : Nat) (source : σ) : Verdict :=
  match t.validate with
  | .error e => ⟨call, .error (.refused e)⟩
  | .ok _ => runIterations attempts t subject seed t.effectiveIterations 0 call source

/-- Tests the subject on a test case. Calls are numbered from `call` on, and `entropy` is the seed
of a test case that has none. -/
def tryTest (t : TestCase) (subject : Subject) (entropy call : Nat) : Verdict :=
  let seed := t.effectiveSeed entropy
  tryTestFrom defaultAttempts t subject seed call (ChaCha.Stream.ofSeed (UInt64.ofNat seed))

end Oracle

end QuantizedGemm
