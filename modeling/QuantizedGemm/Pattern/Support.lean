import QuantizedGemm.Pattern.Reader

/-!
# Patterns that can be searched for

A search goes through the bytes of a text and knows no table of the characters of all scripts. So,
while the flag `unicode` is on, there are no digits, blanks and characters of words, no properties
and no boundaries of words, and letters of both cases cannot be told to be the same. While it is
off, classes hold ASCII characters alone, and what could match a part of a character is left out.
-/

namespace QuantizedGemm.Pattern

/-- The flags that the meaning of a character depends on. -/
structure Flags where
  ignoreCase : Bool := false
  unicode : Bool := true

namespace Flags

variable (f : Flags)

def change (s : Switch) : Flags where
  ignoreCase := s.setting .ignoreCase f.ignoreCase
  unicode := s.setting .unicode f.unicode

/-- Whether a character can be searched for. -/
def allowsLiteral (l : Literal) : Bool :=
  if f.unicode then !f.ignoreCase else !(l.isByte && decide (127 < l.char.toNat))

/-- Whether a character can be in a class. -/
def allowsMember (l : Literal) : Bool :=
  if f.unicode then !f.ignoreCase else decide (l.char.toNat < 128)

mutual

def allows : ClassSet → Bool
  | .literal l => f.allowsMember l
  | .range first last => f.allowsMember first && f.allowsMember last
  | .named negated => if f.unicode then !f.ignoreCase else !negated
  | .shorthand negated => !f.unicode && !negated
  | .property => false
  | .nested negated set => (f.unicode || !negated) && allows set
  | .union sets => allowsAll sets
  | .operation left right => allows left && allows right

def allowsAll : List ClassSet → Bool
  | [] => true
  | set :: sets => allows set && allowsAll sets

end

end Flags

mutual

/-- The flags behind a pattern, if it can be searched for under the flags before it. -/
def flagsAfter? (f : Flags) : Pattern → Option Flags
  | .empty => some f
  | .literal l => if f.allowsLiteral l then some f else none
  | .dot => if f.unicode then some f else none
  | .anchor => some f
  | .wordBoundary => if f.unicode then none else some f
  | .shorthand negated => if f.unicode || negated then none else some f
  | .property => none
  | .charClass negated set =>
    if (f.unicode || !negated) && f.allows set then some f else none
  | .switch s => some (f.change s)
  | .group s body => (flagsAfter? (f.change s) body).map fun _ ↦ f
  | .repetition body => flagsAfter? f body
  | .sequence parts => flagsAfterAll? f parts
  | .choice branches => flagsAfterAll? f branches

/-- The flags behind some patterns, if all can be searched for. A branch hands its flags on. -/
def flagsAfterAll? (f : Flags) : List Pattern → Option Flags
  | [] => some f
  | p :: ps => (flagsAfter? f p).bind fun f ↦ flagsAfterAll? f ps

end

/-- How deep a pattern may be nested. -/
def maxDepth : Nat := 250

/-- Whether `cs` is a pattern that can be searched for. -/
def isSearchable (cs : List Char) : Bool :=
  (parse? cs).any fun p ↦ decide (p.depth ≤ maxDepth) && (p.flagsAfter? {}).isSome

end QuantizedGemm.Pattern
