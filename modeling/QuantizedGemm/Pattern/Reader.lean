import QuantizedGemm.Pattern.Token

/-!
# Reading a pattern

The tokens of a pattern are put together from left to right. The reader holds what is read of the
innermost group, what surrounds it, and the classes that are open.

A pattern cannot be read if a bracket has no partner, if there is nothing to repeat, or if two
groups have one name.
-/

namespace QuantizedGemm.Pattern

/-- What is read of a group. All lists start with what was read last. -/
structure OpenGroup where
  /-- The flags that the group sets. -/
  flags : Switch := {}
  branches : List Pattern := []
  parts : List Pattern := []

namespace OpenGroup

variable (g : OpenGroup)

def push (p : Pattern) : OpenGroup := { g with parts := p :: g.parts }

/-- Starts the next alternative. -/
def branch : OpenGroup :=
  { g with branches := .ofSequence g.parts.reverse :: g.branches, parts := [] }

/-- Repeats the last part. Flags are no such part. -/
def repeat? : Option OpenGroup :=
  match g.parts with
  | [] => none
  | .switch _ :: _ => none
  | p :: ps => some { g with parts := .repetition p :: ps }

/-- The inside of the group. -/
def body : Pattern := .ofChoice g.branch.branches.reverse

end OpenGroup

structure OpenClass where
  negated : Bool
  /-- What was read behind the last operator, the last item first. -/
  items : List ClassSet
  /-- What the operators before made. -/
  left : Option ClassSet := none

namespace OpenClass

variable (c : OpenClass)

def push (set : ClassSet) : OpenClass := { c with items := set :: c.items }

/-- The set that the class stands for so far. -/
def set : ClassSet :=
  match c.left with
  | none => .ofList c.items.reverse
  | some left => .operation left (.ofList c.items.reverse)

end OpenClass

structure Reader where
  group : OpenGroup := {}
  /-- The groups around it, the innermost first. -/
  around : List OpenGroup := []
  /-- The open classes, the innermost first. -/
  classes : List OpenClass := []
  /-- The names of groups. -/
  names : List (List Char) := []

namespace Reader

variable (r : Reader)

/-- Adds a part to the innermost group. -/
def push (p : Pattern) : Reader := { r with group := r.group.push p }

def step? : Token → Option Reader
  | .atom p => some (r.push p)
  | .switch s => some (r.push (.switch s))
  | .bar => some { r with group := r.group.branch }
  | .repetition => r.group.repeat?.map fun group ↦ { r with group }
  | .openGroup name flags =>
    if name.any r.names.contains then none
    else
      some
        { r with group := { flags }, around := r.group :: r.around
                 names := name.toList ++ r.names }
  | .closeGroup =>
    match r.around with
    | [] => none
    | outer :: around =>
      some { r with group := outer.push (.group r.group.flags r.group.body), around }
  | .openClass negated items =>
    some { r with classes := { negated, items := items.reverse } :: r.classes }
  | .classItem set =>
    match r.classes with
    | [] => none
    | c :: classes => some { r with classes := c.push set :: classes }
  | .classOperator =>
    match r.classes with
    | [] => none
    | c :: classes => some { r with classes := { c with items := [], left := c.set } :: classes }
  | .closeClass =>
    match r.classes with
    | [] => none
    | [c] => some { r.push (.charClass c.negated c.set) with classes := [] }
    | c :: outer :: classes =>
      some { r with classes := outer.push (.nested c.negated c.set) :: classes }

/-- The pattern, if every bracket is closed. -/
def finish? : Option Pattern :=
  if r.around.isEmpty && r.classes.isEmpty then some r.group.body else none

end Reader

def ofTokens? (tokens : List Token) : Option Pattern :=
  (tokens.foldlM Reader.step? {}).bind Reader.finish?

def parse? (cs : List Char) : Option Pattern := (tokens? cs).bind ofTokens?

end QuantizedGemm.Pattern
