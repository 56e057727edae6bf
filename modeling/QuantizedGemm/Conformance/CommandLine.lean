import QuantizedGemm.Conformance.Help
import QuantizedGemm.Conformance.LogFilter

/-!
# The command line of the conformance runner

The readers that the program runs with. What is proved of its invocations holds for all readers, and
does not rest on these.

Arguments are read from left to right. An option has its value attached with an equals sign, or in
the next argument unless that one looks like an option itself. Each option may be given once. Help
and version end the reading where they stand: mistakes behind them do not matter, and mistakes
before them win. Where no run comes about, the program prints the help, the version or the mistake,
and a mistake gives the code 2.
-/

namespace QuantizedGemm.Conformance

/-- An option that takes a value. -/
inductive OptionName where
  | variant
  | scenario
  | seed
  | iterations
  | logLevel
  deriving DecidableEq, Repr

namespace OptionName

/-- Every option that takes a value. -/
def all : List OptionName := [variant, scenario, seed, iterations, logLevel]

def text : OptionName → String
  | variant => "variant"
  | scenario => "scenario"
  | seed => "seed"
  | iterations => "iterations"
  | logLevel => "log-level"

def ofText? (s : String) : Option OptionName := all.find? fun o ↦ o.text == s

end OptionName

/-- The options that were given so far. -/
structure Given where
  variant : Option String := none
  scenario : Option String := none
  seed : Option Nat := none
  iterations : Option Nat := none
  list : Bool := false
  logLevel : Option String := none
  deriving DecidableEq, Repr

/-- The options, with what holds where none was given. -/
def Given.options (g : Given) : Options :=
  let o : Options :=
    { variant := g.variant, scenario := g.scenario, seed := g.seed, iterations := g.iterations
      list := g.list }
  { o with logLevel := g.logLevel.getD o.logLevel }

/-- Why arguments are refused. -/
inductive UsageError where
  | unexpectedArgument (argument : String)
  | missingValue (name : OptionName)
  | invalidValue (name : OptionName) (value : String)
  /-- A value is attached to an option that takes none. -/
  | unwantedValue (name value : String)
  | repeated (name : String)
  deriving DecidableEq, Repr

def UsageError.message : UsageError → String
  | unexpectedArgument argument => s!"error: unexpected argument '{argument}' found"
  | missingValue name => s!"error: a value is required for '--{name.text}' but none was supplied"
  | invalidValue name value => s!"error: invalid value '{value}' for '--{name.text}'"
  | unwantedValue name value => s!"error: unexpected value '{value}' for '--{name}' found"
  | repeated name => s!"error: the argument '--{name}' cannot be used multiple times"

/-- What the arguments ask for. -/
inductive Request where
  | help
  | version
  | run (given : Given)
  deriving DecidableEq, Repr

/-! ## Single arguments -/

/-- What an argument is by its looks. -/
inductive Argument where
  /-- Two dashes alone. They announce arguments that are no options. -/
  | separator
  /-- A name behind two dashes, and the value attached to it. -/
  | long (name : String) (attached : Option String)
  /-- Letters behind one dash. -/
  | short (letters : List Char)
  /-- Anything else. A dash alone is no option. -/
  | plain
  deriving DecidableEq, Repr

/-- Splits at the first equals sign. -/
def splitValue (cs : List Char) : String × Option String :=
  let name := String.ofList (cs.takeWhile (· != '='))
  match cs.dropWhile (· != '=') with
  | [] => (name, none)
  | _ :: value => (name, some (String.ofList value))

def Argument.ofString (s : String) : Argument :=
  match s.toList with
  | ['-', '-'] => separator
  | '-' :: '-' :: cs => let (name, attached) := splitValue cs; long name attached
  | '-' :: c :: cs => short (c :: cs)
  | _ => plain

/-! ## Values -/

namespace Given

def firstText (name : OptionName) (current : Option String) (value : String) :
    Except UsageError (Option String) :=
  if current.isSome then .error (.repeated name.text) else .ok (some value)

/-- The number of an option that is given for the first time, one from `least` to below
`2 ^ 64`. -/
def firstNumber (name : OptionName) (least : Nat) (current : Option Nat) (value : String) :
    Except UsageError (Option Nat) :=
  if current.isSome then .error (.repeated name.text)
  else match Text.numeral? UInt64.size value.toList with
    | some n => if least ≤ n then .ok (some n) else .error (.invalidValue name value)
    | none => .error (.invalidValue name value)

def give (o : Given) (name : OptionName) (value : String) : Except UsageError Given :=
  match name with
  | .variant => do pure { o with variant := ← firstText name o.variant value }
  | .scenario => do pure { o with scenario := ← firstText name o.scenario value }
  | .seed => do pure { o with seed := ← firstNumber name 0 o.seed value }
  | .iterations => do pure { o with iterations := ← firstNumber name 1 o.iterations value }
  | .logLevel => do pure { o with logLevel := ← firstText name o.logLevel value }

def giveList (o : Given) : Except UsageError Given :=
  if o.list then .error (.repeated "list") else .ok { o with list := true }

end Given

/-- Whether an argument can be the value of the option before it. -/
def isValue (s : String) : Bool := Argument.ofString s == .plain

/-! ## All arguments -/

/-- What the first of some letters asks for. Whatever follows it does not matter. -/
def Request.ofLetters (argument : String) : List Char → Except UsageError Request
  | 'h' :: _ => .ok .help
  | 'V' :: _ => .ok .version
  | _ => .error (.unexpectedArgument argument)

/-- What a name asks for that takes no value, where `argument` is how it was given. -/
def Request.ofName (argument name : String) : Except UsageError Request :=
  match name with
  | "help" => .ok .help
  | "version" => .ok .version
  | _ => .error (.unexpectedArgument argument)

/-- Why a value cannot be attached to a name that takes none. -/
def UsageError.ofAttached (argument name value : String) : UsageError :=
  if name ∈ ["list", "help", "version"] then unwantedValue name value
  else unexpectedArgument argument

/-- Reads the arguments that are left, on top of the options read so far. -/
def Request.parseFrom (o : Given) : List String → Except UsageError Request
  | [] => .ok (.run o)
  | argument :: rest =>
    match Argument.ofString argument with
    | .plain => .error (.unexpectedArgument argument)
    | .separator =>
      match rest with
      | [] => .ok (.run o)
      | extra :: _ => .error (.unexpectedArgument extra)
    | .short letters => ofLetters argument letters
    | .long name (some value) =>
      match OptionName.ofText? name with
      | some option => (o.give option value).bind fun o ↦ parseFrom o rest
      | none => .error (.ofAttached argument name value)
    | .long name none =>
      match OptionName.ofText? name with
      | some option =>
        match rest with
        | [] => .error (.missingValue option)
        | value :: rest =>
          if isValue value then (o.give option value).bind fun o ↦ parseFrom o rest
          else .error (.missingValue option)
      | none =>
        if name = "list" then o.giveList.bind fun o ↦ parseFrom o rest
        else ofName argument name

/-- Reads all arguments. -/
def Request.parse (arguments : List String) : Except UsageError Request := parseFrom {} arguments

/-- The readers that the program runs with. -/
def Readers.standard : Readers where
  options arguments :=
    match Request.parse arguments with
    | .ok (.run given) => .ok given.options
    | .ok .help => .error { lines := helpLines }
    | .ok .version => .error { lines := [versionLine] }
    | .error e => .error { complaints := [e.message], exitCode := 2 }
  logFilter := LogFilter.check

end QuantizedGemm.Conformance
