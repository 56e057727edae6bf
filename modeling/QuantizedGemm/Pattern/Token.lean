import QuantizedGemm.Pattern.Basic
import QuantizedGemm.Text.Alphanumeric
import QuantizedGemm.Text.Blank

/-!
# Tokens of a pattern

A pattern is read in two steps, and its tokens are what is between them: a character or an escape,
an opening or closing bracket of a group or a class, a mark between alternatives or behind what is
repeated, or an item of a class.

Where the flag `spacedOut` is on, blanks carry no meaning, nor does what follows a number sign up to
the end of its line. So the scanner keeps track of that flag through the groups, and of how many
classes it is inside of.
-/

namespace QuantizedGemm.Pattern

inductive Token
  /-- What can be repeated and has no parts. -/
  | atom (p : Pattern)
  | switch (s : Switch)
  | openGroup (name : Option (List Char)) (s : Switch)
  | closeGroup
  | bar
  | repetition
  | openClass (negated : Bool) (items : List ClassSet)
  | classItem (set : ClassSet)
  | classOperator
  | closeClass
  deriving Repr

/-! ## Blanks and comments -/

/-- Drops blanks and comments. The flag tells whether a comment is open. -/
def dropSpace : Bool → List Char → List Char
  | _, [] => []
  | true, c :: cs => dropSpace (c != '\n') cs
  | false, c :: cs =>
    if Text.isBlank c then dropSpace false cs
    else if c = '#' then dropSpace true cs
    else c :: cs

theorem length_dropSpace_le (comment : Bool) (cs : List Char) :
    (dropSpace comment cs).length ≤ cs.length := by
  induction cs generalizing comment with
  | nil => simp [dropSpace]
  | cons c cs ih =>
    cases comment with
    | true => exact Nat.le_succ_of_le (ih _)
    | false =>
      unfold dropSpace
      split
      · exact Nat.le_succ_of_le (ih _)
      · split
        · exact Nat.le_succ_of_le (ih _)
        · exact Nat.le_refl _

/-- Drops what carries no meaning. -/
def skip (spaced : Bool) (cs : List Char) : List Char := if spaced then dropSpace false cs else cs

theorem length_skip_le (spaced : Bool) (cs : List Char) :
    (skip spaced cs).length ≤ cs.length := by
  unfold skip
  split
  · exact length_dropSpace_le _ _
  · exact Nat.le_refl _

/-- The character that decides whether a dash makes a range. A comment in front of it counts only
for its number sign. -/
def afterDash? (spaced : Bool) (cs : List Char) : Option Char :=
  if spaced then
    match cs.dropWhile Text.isBlank with
    | '#' :: rest => (rest.dropWhile Text.isBlank).head?
    | rest => rest.head?
  else cs.head?

/-! ## Escapes -/

/-- The value of a hexadecimal digit. -/
def hexDigit? (c : Char) : Option Nat :=
  if '0' ≤ c ∧ c ≤ '9' then some (c.toNat - '0'.toNat)
  else if 'a' ≤ c ∧ c ≤ 'f' then some (c.toNat - 'a'.toNat + 10)
  else if 'A' ≤ c ∧ c ≤ 'F' then some (c.toNat - 'A'.toNat + 10)
  else none

/-- Reads so many hexadecimal digits behind those with the value `value`. -/
def hexNumber? (spaced : Bool) : Nat → Nat → List Char → Option (Nat × List Char)
  | 0, value, cs => some (value, cs)
  | n + 1, value, cs =>
    match skip spaced cs with
    | [] => none
    | c :: rest => (hexDigit? c).bind fun d ↦ hexNumber? spaced n (16 * value + d) rest

/-- Reads the character whose number has so many digits. -/
def hexChar? (spaced : Bool) (digits : Nat) (cs : List Char) : Option (Pattern × List Char) :=
  match hexNumber? spaced digits 0 cs with
  | some (n, rest) =>
    if n.isValidChar then some (.literal ⟨Char.ofNat n, digits == 2⟩, rest) else none
  | none => none

/-- The controls that have an escape of their own. -/
def controlEscapes : List (Char × Char) :=
  [('a', '\x07'), ('f', '\x0c'), ('t', '\t'), ('n', '\n'), ('r', '\r'), ('v', '\x0b')]

/-- What `c` means behind a backslash, where it stands by itself. -/
def escaped? (c : Char) : Option Pattern :=
  if ['d', 's', 'w'].contains c then some (.shorthand false)
  else if ['D', 'S', 'W'].contains c then some (.shorthand true)
  else if ['A', 'z'].contains c then some .anchor
  else if ['b', 'B', '<', '>'].contains c then some .wordBoundary
  else if ['p', 'P'].contains c then some .property
  else if c.isAlphanum then (controlEscapes.lookup c).map fun control ↦ .literal ⟨control, false⟩
  else if c.toNat < 128 then some (.literal ⟨c, false⟩)
  else none

/-- Reads what stands behind a backslash. -/
def escape? (spaced : Bool) : List Char → Option (Pattern × List Char)
  | 'x' :: cs => hexChar? spaced 2 cs
  | 'u' :: cs => hexChar? spaced 4 cs
  | 'U' :: cs => hexChar? spaced 8 cs
  | c :: cs => (escaped? c).map (·, cs)
  | [] => none

/-! ## Groups -/

def flag? : Char → Option Flag
  | 'i' => some .ignoreCase
  | 'm' => some .manyLines
  | 's' => some .dotMatchesAll
  | 'U' => some .lazyFirst
  | 'u' => some .unicode
  | 'x' => some .spacedOut
  | 'R' => some .carriageReturns
  | _ => none

/-- Reads flags up to a colon or a closing bracket, which is left. No flag may be named twice, and
a dash, which may come once, has to be followed by a flag. -/
def switch? (negative dangling : Bool) (s : Switch) : List Char → Option (Switch × List Char)
  | [] => none
  | c :: cs =>
    if c = ':' || c = ')' then if dangling then none else some (s, c :: cs)
    else if c = '-' then if negative then none else switch? true true s cs
    else
      match flag? c with
      | none => none
      | some f =>
        if s.mentions f then none
        else if negative then switch? true false { s with off := f :: s.off } cs
        else switch? false false { s with on := f :: s.on } cs

/-- Whether `cs` can be the name of a group. -/
def isGroupName : List Char → Bool
  | [] => false
  | c :: cs =>
    (c = '_' || Text.isAlphabetic c) &&
      cs.all fun c ↦ ['_', '.', '[', ']'].contains c || Text.isAlphanumeric c

/-- Reads the name of a group up to its closing angle bracket. -/
def groupName? (cs : List Char) : Option (Token × List Char) :=
  let name := cs.takeWhile (· != '>')
  match cs.dropWhile (· != '>') with
  | _ :: rest => if isGroupName name then some (.openGroup (some name) {}, rest) else none
  | [] => none

/-- Reads what stands behind an opening bracket. -/
def group? (spaced : Bool) (cs : List Char) : Option (Token × List Char) :=
  match skip spaced cs with
  | '?' :: 'P' :: '<' :: rest => groupName? rest
  | '?' :: '<' :: rest => groupName? rest
  | '?' :: rest =>
    match switch? false false {} rest with
    | some (s, ':' :: rest) => some (.openGroup none s, rest)
    | some (s, _ :: rest) => if s = {} then none else some (.switch s, rest)
    | _ => none
  | rest => some (.openGroup none {}, rest)

/-! ## Classes -/

def classNames : List String :=
  ["alnum", "alpha", "ascii", "blank", "cntrl", "digit", "graph", "lower", "print", "punct",
   "space", "upper", "word", "xdigit"]

/-- Reads the name of a class, between colons, and the closing bracket behind it. -/
def namedClass? : List Char → Option (ClassSet × List Char)
  | ':' :: cs =>
    let name := if cs.head? == some '^' then cs.tail else cs
    match name.dropWhile (· != ':') with
    | ':' :: ']' :: rest =>
      if classNames.contains (String.ofList (name.takeWhile (· != ':'))) then
        some (.named (cs.head? == some '^'), rest)
      else none
    | _ => none
  | _ => none

/-- Reads the dashes at the start of a class, which stand for themselves. -/
def leadingDashes (spaced : Bool) (cs : List Char) : List ClassSet × List Char :=
  match _h : skip spaced cs with
  | '-' :: rest =>
    let dashes := leadingDashes spaced rest
    (.literal ⟨'-', false⟩ :: dashes.1, dashes.2)
  | rest => ([], rest)
termination_by cs.length
decreasing_by
  have := length_skip_le spaced cs
  rw [_h, List.length_cons] at this
  omega

/-- Reads what stands behind the opening bracket of a class up to its first proper item. A closing
bracket there stands for itself. -/
def openClass (spaced : Bool) (cs : List Char) : Token × List Char :=
  let inner := skip spaced cs
  let negated := inner.head? == some '^'
  match leadingDashes spaced (if negated then inner.tail else inner) with
  | ([], ']' :: rest) => (.openClass negated [.literal ⟨']', false⟩], rest)
  | (dashes, rest) => (.openClass negated dashes, rest)

def classItem? : Pattern → Option ClassSet
  | .literal l => some (.literal l)
  | .shorthand negated => some (.shorthand negated)
  | .property => some .property
  | _ => none

/-- The range between two items of a class. -/
def range? : Pattern → Pattern → Option ClassSet
  | .literal first, .literal last =>
    if first.char ≤ last.char then some (.range first last) else none
  | _, _ => none

/-- Reads a character of a class, which may be escaped. -/
def classChar? (spaced : Bool) : List Char → Option (Pattern × List Char)
  | '\\' :: cs => escape? spaced cs
  | c :: cs => some (.literal ⟨c, false⟩, cs)
  | [] => none

def classRange? (spaced : Bool) (cs : List Char) : Option (Token × List Char) := do
  let (first, rest) ← classChar? spaced cs
  let single := (classItem? first).map (.classItem ·, skip spaced rest)
  match skip spaced rest with
  | '-' :: tail =>
    if [some ']', some '-'].contains (afterDash? spaced tail) then single
    else
      let (last, rest) ← classChar? spaced (skip spaced tail)
      (range? first last).map (.classItem ·, rest)
  | _ => single

/-! ## The scanner -/

/-- What the scanner goes by. -/
structure Context where
  /-- Whether blanks and comments are passed over. -/
  spaced : Bool := false
  /-- The same for what surrounds each open group, the innermost first. -/
  around : List Bool := []
  /-- How many classes are open. -/
  classes : Nat := 0

namespace Context

variable (k : Context)

/-- Reads a token outside of classes. -/
def outer? : List Char → Option (Token × List Char)
  | '(' :: cs => group? k.spaced cs
  | ')' :: cs => some (.closeGroup, cs)
  | '|' :: cs => some (.bar, cs)
  | '[' :: cs => some (openClass k.spaced cs)
  | '?' :: cs | '*' :: cs | '+' :: cs => some (.repetition, cs)
  | '\x7b' :: _ => none
  | '\\' :: cs => (escape? k.spaced cs).map fun e ↦ (.atom e.1, e.2)
  | '.' :: cs => some (.atom .dot, cs)
  | '^' :: cs | '$' :: cs => some (.atom .anchor, cs)
  | c :: cs => some (.atom (.literal ⟨c, false⟩), cs)
  | [] => none

/-- Reads a token inside of a class. -/
def inner? : List Char → Option (Token × List Char)
  | '[' :: cs =>
    match namedClass? cs with
    | some (set, rest) => some (.classItem set, rest)
    | none => some (openClass k.spaced cs)
  | ']' :: cs => some (.closeClass, cs)
  | '&' :: '&' :: cs | '-' :: '-' :: cs | '~' :: '~' :: cs => some (.classOperator, cs)
  | cs => classRange? k.spaced cs

/-- What the scanner goes by behind a token. -/
def next : Token → Context
  | .switch s => { k with spaced := s.setting .spacedOut k.spaced }
  | .openGroup _ s =>
    { k with spaced := s.setting .spacedOut k.spaced, around := k.spaced :: k.around }
  | .closeGroup => { k with spaced := k.around.headD false, around := k.around.tail }
  | .openClass .. => { k with classes := k.classes + 1 }
  | .closeClass => { k with classes := k.classes - 1 }
  | _ => k

end Context

/-- Reads at most so many tokens, and fails if that is not all. -/
def tokensUpTo? : Nat → Context → List Char → Option (List Token)
  | limit, k, cs =>
    match limit, skip k.spaced cs with
    | _, [] => some []
    | 0, _ => none
    | limit + 1, cs => do
      let (token, rest) ← if k.classes = 0 then k.outer? cs else k.inner? cs
      (tokensUpTo? limit (k.next token) rest).map (token :: ·)

/-- The tokens of a pattern. Each takes a character or more. -/
def tokens? (cs : List Char) : Option (List Token) := tokensUpTo? cs.length {} cs

end QuantizedGemm.Pattern
