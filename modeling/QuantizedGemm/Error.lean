import QuantizedGemm.Isa
import QuantizedGemm.Decimal.Style
import QuantizedGemm.Text.Quoted

/-!
# Errors and faults

An `Error` is a refusal with a cause: a kernel that cannot take a call, quantization arguments that
no parameters exist for, an output that is not the expected one, a configuration that makes no
sense. Its `message` is one line of text; `inspect` shows its structure.

## Refusals and faults

A `Fault` is an operation outside its domain, such as a division by zero, an access past the end of
a buffer or an integer without room. Code that checks its arguments should never run into one. A
`Failure` is either of the two: a refusal is an answer, and a fault ends the program.
-/

namespace QuantizedGemm

/-- Why kernels, packing and the registry refuse. -/
inductive KernelError where
  /-- No variant runs on this host. -/
  | noProvider
  | unknownVariant (name : String)
  | unsupportedHardware (required : Isa) (available : String)
  /-- The parameters belong to another family than the kernel's. -/
  | paramsMismatch (expected found : String)
  | bufferTooSmall (what : String) (required actual : Nat)
  | invalidGeometry (reason : String)
  deriving DecidableEq

/-- Why quantization arguments are refused. -/
inductive QuantizationError where
  | invalidScale (scale : Binary32)
  | invalidRange (min max : UInt8)
  /-- The bounds are those of the supported range, the lower one included. -/
  | scaleOutOfRange (scale min max : Binary32)
  deriving DecidableEq

/-- How an output disagrees with the reference. -/
inductive ValidationError where
  | mismatch (row col : Nat) (expected actual : UInt8) (accumulator : Int32) (context : String)
  | outOfRange (row col : Nat) (value min max : UInt8) (context : String)
  deriving DecidableEq

/-- A refusal with its cause. -/
inductive Error where
  | kernel (cause : KernelError)
  | quantization (cause : QuantizationError)
  | validation (cause : ValidationError)
  | config (text : String)
  deriving DecidableEq

/-! ## Messages -/

def KernelError.message : KernelError → String
  | noProvider => "no available kernel variant"
  | unknownVariant name => s!"unknown kernel variant: {name}"
  | unsupportedHardware required available =>
    s!"unsupported hardware: required {required.tag}, available {available}"
  | paramsMismatch expected found =>
    s!"quantization params mismatch: kernel expects {expected}, got {found}"
  | bufferTooSmall what required actual =>
    s!"buffer too small for {what}: need {required}, got {actual}"
  | invalidGeometry reason => s!"invalid convolution geometry: {reason}"

def QuantizationError.message : QuantizationError → String
  | invalidScale scale =>
    s!"requantization scale must be finite and positive, got {Style.plain.write scale}"
  | invalidRange min max => s!"output range is empty: min {min} > max {max}"
  | scaleOutOfRange scale min max =>
    let bounds := s!"[{Style.plain.write min}, {Style.plain.write max})"
    s!"requantization scale {Style.plain.write scale} outside the supported range {bounds}"

def ValidationError.message : ValidationError → String
  | mismatch row col expected actual accumulator context =>
    s!"at {row}, {col}: reference = {expected} (accumulator = {accumulator}), " ++
      s!"optimized = {actual}, {context}"
  | outOfRange row col value min max context =>
    s!"at {row}, {col}: output {value} outside [{min}, {max}], {context}"

namespace Error

/-- The message of an error, which starts with the area it comes from. -/
def message : Error → String
  | kernel cause => s!"kernel error: {cause.message}"
  | quantization cause => s!"quantization error: {cause.message}"
  | validation cause => s!"validation error: {cause.message}"
  | config text => s!"configuration error: {text}"

/-- The messages of the causes behind an error, outermost first. -/
def causes : Error → List String
  | kernel cause => [cause.message]
  | quantization cause => [cause.message]
  | validation cause => [cause.message]
  | config _ => []

end Error

/-! ## Structure -/

def inspectRecord (constructor : String) (fields : List (String × String)) : String :=
  let body := String.intercalate ", " (fields.map fun p ↦ s!"{p.1}: {p.2}")
  constructor ++ " \x7b " ++ body ++ " \x7d"

def inspectWrapper (constructor content : String) : String := s!"{constructor}({content})"

namespace KernelError

def constructorName : KernelError → String
  | noProvider => "NoProvider"
  | unknownVariant .. => "UnknownVariant"
  | unsupportedHardware .. => "UnsupportedHardware"
  | paramsMismatch .. => "ParamsMismatch"
  | bufferTooSmall .. => "BufferTooSmall"
  | invalidGeometry .. => "InvalidGeometry"

def inspect (e : KernelError) : String :=
  match e with
  | noProvider => e.constructorName
  | unknownVariant name => inspectRecord e.constructorName [("name", Text.quoted name)]
  | unsupportedHardware required available =>
    inspectRecord e.constructorName
      [("required", required.constructorName), ("available", Text.quoted available)]
  | paramsMismatch expected found =>
    inspectRecord e.constructorName
      [("expected", Text.quoted expected), ("found", Text.quoted found)]
  | bufferTooSmall what required actual =>
    inspectRecord e.constructorName
      [("what", Text.quoted what), ("required", toString required), ("actual", toString actual)]
  | invalidGeometry reason => inspectRecord e.constructorName [("reason", Text.quoted reason)]

end KernelError

namespace QuantizationError

def constructorName : QuantizationError → String
  | invalidScale .. => "InvalidScale"
  | invalidRange .. => "InvalidRange"
  | scaleOutOfRange .. => "ScaleOutOfRange"

def inspect (e : QuantizationError) : String :=
  match e with
  | invalidScale scale => inspectRecord e.constructorName [("scale", Style.structural.write scale)]
  | invalidRange min max =>
    inspectRecord e.constructorName [("min", toString min), ("max", toString max)]
  | scaleOutOfRange scale min max =>
    inspectRecord e.constructorName
      [("scale", Style.structural.write scale), ("min", Style.structural.write min),
       ("max", Style.structural.write max)]

end QuantizationError

namespace ValidationError

def constructorName : ValidationError → String
  | mismatch .. => "Mismatch"
  | outOfRange .. => "OutOfRange"

def inspect (e : ValidationError) : String :=
  match e with
  | mismatch row col expected actual accumulator context =>
    inspectRecord e.constructorName
      [("row", toString row), ("col", toString col), ("expected", toString expected),
       ("actual", toString actual), ("accumulator", toString accumulator),
       ("context", Text.quoted context)]
  | outOfRange row col value min max context =>
    inspectRecord e.constructorName
      [("row", toString row), ("col", toString col), ("value", toString value),
       ("min", toString min), ("max", toString max), ("context", Text.quoted context)]

end ValidationError

namespace Error

/-- The name of the innermost constructor. -/
def kind : Error → String
  | kernel cause => cause.constructorName
  | quantization cause => cause.constructorName
  | validation cause => cause.constructorName
  | config _ => "Config"

def inspect : Error → String
  | kernel cause => inspectWrapper "Kernel" cause.inspect
  | quantization cause => inspectWrapper "Quantization" cause.inspect
  | validation cause => inspectWrapper "Validation" cause.inspect
  | config text => inspectWrapper "Config" (Text.quoted text)

end Error

/-! ## Faults -/

/-- An operation outside its domain. -/
inductive Fault where
  | divisionByZero
  /-- A position outside a buffer. -/
  | outOfBounds
  /-- A result that has no room in its type. -/
  | overflow
  /-- A random source that did not vary within the redraws allowed. -/
  | exhausted
  deriving DecidableEq, Repr

def Fault.message : Fault → String
  | divisionByZero => "division by zero"
  | outOfBounds => "position out of bounds"
  | overflow => "arithmetic overflow"
  | exhausted => "random source exhausted"

/-- What ends a computation early. -/
inductive Failure where
  | refused (error : Error)
  | fault (fault : Fault)
  deriving DecidableEq

/-- A check, as part of a computation that may also fault. -/
def asRefusal {α : Type} (x : Except Error α) : Except Failure α := x.mapError .refused

/-- A computation that refuses nothing, as part of one that may. -/
def asFault {α : Type} (x : Except Fault α) : Except Failure α := x.mapError .fault

def Failure.message : Failure → String
  | .refused e => e.message
  | .fault f => f.message

end QuantizedGemm
