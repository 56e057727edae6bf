import QuantizedGemm.Conformance.Invocation
import QuantizedGemm.Pattern.Support
import QuantizedGemm.Text.Alphanumeric
import QuantizedGemm.Text.Blank
import QuantizedGemm.Text.Number
import QuantizedGemm.Text.Slice

/-!
# Log filters

A log filter is a list of directives with commas between them. A directive is a level, or it names a
target, a span in brackets, or a target and a span in it, and then may go on with an equals sign and
a level, which may be left out. A span may list a field in braces, with a value or a pattern.

The blanks around a directive are passed over. Yet the offsets of its parts are counted from the
first character that is not blank, and the parts are then cut out of the whole text by these
offsets. So behind blanks a part is not what stands there, and the cut may fall inside a character,
which is a fault.
-/

namespace QuantizedGemm.Conformance.LogFilter

def levelNames : List String := ["trace", "debug", "info", "warn", "error", "off"]

/-- Whether `cs` is a level: its name in any case of the letters, or a number up to five. -/
def isLevel (cs : List Char) : Bool :=
  (Text.numeral? 6 cs).isSome || levelNames.any fun name ↦ Text.spells name cs

/-- Whether a field can be compared with `cs`. The words for the truth values are patterns too. -/
def isValue (cs : List Char) : Bool := Text.isNumber cs || Pattern.isSearchable cs

/-- Whether `cs` is a field: a name, and behind an equals sign a value. What stands behind a second
equals sign is passed over. -/
def isField (cs : List Char) : Bool :=
  !cs.isEmpty &&
    match cs.splitOn '=' with
    | _ :: value :: _ => isValue value
    | _ => true

/-- Whether a target may start with `c`. A level by itself looks like a target. -/
def isTargetStart (c : Char) : Bool := Text.isAlphanumeric c || ['-', ':', '_'].contains c

/-- What a directive is in the middle of, with the offset where that starts. -/
inductive Stage
  | start
  | target
  | span (start : Nat)
  | field (start : Nat)
  /-- Behind the closing brace. -/
  | fields
  /-- Behind the closing bracket. -/
  | ending
  | level (start : Nat)
  deriving DecidableEq, Repr

/-- The part of `text` between two offsets. -/
def part (text : List Char) (start stop : Nat) : Except FilterRefusal (List Char) :=
  match Text.slice? start stop text with
  | some cs => .ok cs
  | none => .error .faulted

/-- Goes on to `next` if the part of `text` between two offsets satisfies `p`. -/
def cut (text : List Char) (start stop : Nat) (p : List Char → Bool) (next : Stage) :
    Except FilterRefusal Stage := do
  if p (← part text start stop) then return next else throw .malformed

def step (text : List Char) (offset : Nat) (c : Char) : Stage → Except FilterRefusal Stage
  | .start =>
    if c = '[' then .ok (.span (offset + 1))
    else if isTargetStart c then .ok .target
    else .error .malformed
  | .target =>
    if c = '=' then cut text 0 offset (fun _ ↦ true) (.level (offset + 1))
    else if c = '[' then cut text 0 offset (fun _ ↦ true) (.span (offset + 1))
    else .ok .target
  | .span start =>
    if c = ']' then cut text start offset (fun _ ↦ true) .ending
    else if c = '\x7b' then cut text start offset (fun _ ↦ true) (.field (offset + 1))
    else .ok (.span start)
  | .field start =>
    if c = '\x7d' then cut text start offset isField .fields else .ok (.field start)
  | .fields => if c = ']' then .ok .ending else .error .malformed
  | .ending => if c = '=' then .ok (.level (offset + 1)) else .error .malformed
  | .level start => .ok (.level start)

/-- Takes in some characters, the first of which is at an offset. -/
def run (text : List Char) (offset : Nat) (stage : Stage) : List Char → Except FilterRefusal Stage
  | [] => .ok stage
  | c :: cs => do run text (offset + c.utf8Size) (← step text offset c stage) cs

/-- Whether the directive `text` may end here. -/
def finish (text : List Char) : Stage → Except FilterRefusal Unit
  | .target | .ending => .ok ()
  | .level start => do
    let level ← part text start (Text.byteLength text)
    if level.isEmpty || isLevel level then .ok () else .error .malformed
  | _ => .error .malformed

def checkDirective (text : List Char) : Except FilterRefusal Unit := do
  finish text (← run text 0 .start (Text.trimBlanks text))

/-- Checks a filter. Empty directives are passed over, and the first fault counts. -/
def check (s : String) : Except FilterRefusal Unit :=
  ((s.toList.splitOn ',').filter (!·.isEmpty)).forM checkDirective

end QuantizedGemm.Conformance.LogFilter
