/-!
# Search patterns

The form of a search pattern: characters, classes of characters, assertions, groups, repetitions and
alternatives. A pattern may set flags for what follows in the group it stands in, or for the inside
of a group.

How deep a pattern is nested counts the groups, repetitions, classes, sequences and alternatives
around its innermost part. A sequence or a choice of one part is that part and adds nothing.
-/

namespace QuantizedGemm

namespace Pattern

/-- What a pattern can switch on and off. -/
inductive Flag
  | ignoreCase
  | manyLines
  | dotMatchesAll
  | lazyFirst
  | unicode
  | spacedOut
  | carriageReturns
  deriving DecidableEq, Repr

/-- Flags that are switched on and off together. -/
structure Switch where
  on : List Flag := []
  off : List Flag := []
  deriving DecidableEq, Repr

namespace Switch

def mentions (s : Switch) (f : Flag) : Bool := s.on.contains f || s.off.contains f

/-- The state of a flag behind `s`, from the state before. -/
def setting (s : Switch) (f : Flag) (before : Bool) : Bool :=
  s.on.contains f || before && !s.off.contains f

end Switch

/-- A character that stands for itself. -/
structure Literal where
  char : Char
  /-- Whether it is written as a number of two digits, which may also mean a byte. -/
  isByte : Bool := false
  deriving DecidableEq, Repr

/-- What stands between the brackets of a class. -/
inductive ClassSet
  | literal (l : Literal)
  | range (first last : Literal)
  /-- A class by its name, such as the letters. -/
  | named (negated : Bool)
  /-- The digits, the blanks or the characters of words. -/
  | shorthand (negated : Bool)
  /-- The characters with some property. -/
  | property
  | nested (negated : Bool) (set : ClassSet)
  | union (sets : List ClassSet)
  /-- The common part, or a difference, of two sets. -/
  | operation (left right : ClassSet)
  deriving Repr

mutual

/-- How deep a set is nested. -/
def ClassSet.depth : ClassSet → Nat
  | .nested _ set => set.depth + 1
  | .union [] => 0
  | .union sets => ClassSet.depths sets + 1
  | .operation left right => max left.depth right.depth + 1
  | _ => 0

/-- How deep the deepest of some sets is nested. -/
def ClassSet.depths : List ClassSet → Nat
  | [] => 0
  | set :: sets => max set.depth (ClassSet.depths sets)

end

/-- The union of some sets. -/
def ClassSet.ofList : List ClassSet → ClassSet
  | [set] => set
  | sets => .union sets

end Pattern

open Pattern in
inductive Pattern
  | empty
  | literal (l : Literal)
  /-- Any character. -/
  | dot
  /-- The start or the end of a line or of the text. -/
  | anchor
  /-- Where a word starts or ends, or neither. -/
  | wordBoundary
  /-- A digit, a blank or a character of words. -/
  | shorthand (negated : Bool)
  /-- A character with some property. -/
  | property
  | charClass (negated : Bool) (set : ClassSet)
  /-- Flags for what follows. -/
  | switch (s : Switch)
  | group (s : Switch) (body : Pattern)
  | repetition (body : Pattern)
  | sequence (parts : List Pattern)
  | choice (branches : List Pattern)
  deriving Repr

namespace Pattern

mutual

/-- How deep a pattern is nested. -/
def depth : Pattern → Nat
  | .charClass _ set => set.depth + 1
  | .group _ body => body.depth + 1
  | .repetition body => body.depth + 1
  | .sequence parts => depths parts + 1
  | .choice branches => depths branches + 1
  | _ => 0

/-- How deep the deepest of some patterns is nested. -/
def depths : List Pattern → Nat
  | [] => 0
  | p :: ps => max p.depth (depths ps)

end

/-- Some patterns one after the other. -/
def ofSequence : List Pattern → Pattern
  | [] => .empty
  | [p] => p
  | ps => .sequence ps

def ofChoice : List Pattern → Pattern
  | [p] => p
  | ps => .choice ps

end Pattern

end QuantizedGemm
