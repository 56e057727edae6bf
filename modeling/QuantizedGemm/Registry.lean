import QuantizedGemm.Variant

/-!
# The registry of variants

A registry knows the variants by name and picks the first one that the host runs. The first pick is
kept: later ones return it, whatever the host has come to support in the meantime.

What the host runs is found out anew for each variant that is looked at. A pick looks at the
variants up to the one that it picks, a list of what is available at all of them.
-/

namespace QuantizedGemm

/-- Variants in order of preference, and the first pick once there was one. A pick that found no
variant is kept too. -/
structure Registry where
  variants : List Variant
  picked : Option (Option Variant) := none

namespace Registry

/-- A registry of the whole catalogue. -/
def create : Logged Registry :=
  let r : Registry := { variants := Variant.catalogue }
  ⟨r, [⟨.debug, s!"registered {r.variants.length} qu8 igemm variants"⟩]⟩

variable (r : Registry)

def find (name : String) : Except Error Variant :=
  match r.variants.find? fun v ↦ v.name == name with
  | some v => .ok v
  | none => .error (.kernel (.unknownVariant name))

def available (host : Capabilities) (forceScalar : Bool) : Logged (List Variant) :=
  Logged.filter (·.isAvailable host forceScalar) r.variants

def answer : Option Variant → Except Error Variant
  | some v => .ok v
  | none => .error (.kernel .noProvider)

/-- The record of a first pick. -/
def selectionRecord : Option Variant → LogRecord
  | some v => ⟨.info, s!"Selected qu8 igemm variant: {v.name}"⟩
  | none => ⟨.error, "No available qu8 igemm variant found"⟩

/-- Picks the preferred variant of a host and keeps it. Only the first pick looks at the host and is
logged. -/
def selectBest (host : Capabilities) (forceScalar : Bool) :
    Logged (Except Error Variant × Registry) :=
  match r.picked with
  | some pick => ⟨(answer pick, r), []⟩
  | none =>
    let pick := Logged.find? (·.isAvailable host forceScalar) r.variants
    ⟨(answer pick.value, { r with picked := some pick.value }),
      pick.records ++ [selectionRecord pick.value]⟩

end Registry

end QuantizedGemm
