import QuantizedGemm.Registry
import QuantizedGemm.Settings

/-!
# Sessions with a registry

A session puts one query after the other to a registry, while the environment may change in between.
What the host runs is looked up anew for every query: only the first pick is remembered.

## Logs

Every query answers with the records that it logs. A pick that finds nothing remembered logs its
choice. A probe of the host logs that it hides the vector extensions, where it is told to, so that a
query logs as many of these records as it makes probes.
-/

namespace QuantizedGemm.Registry

/-- A step of a session. -/
inductive Query where
  | changeEnvironment (e : Environment)
  | selectBest
  | listAvailable
  | find (name : String)
  | listVariants

/-- The answer to a query. -/
inductive Reply where
  | changed
  | picked (result : Except Error Variant)
  | available (names : List String)
  | found (result : Except Error Variant)
  | variants (variants : List Variant)

/-- A registry and the environment it works in. -/
structure Session where
  registry : Registry
  environment : Environment

namespace Session

/-- Answers one query. The records are all that arise on the way, those of the probes included. -/
def step (host : Capabilities) (s : Session) (q : Query) : Logged Reply × Session :=
  let force := s.environment.forcesScalar
  match q with
  | .changeEnvironment e => (⟨.changed, []⟩, { s with environment := e })
  | .selectBest =>
    let pick := s.registry.selectBest host force
    (⟨.picked pick.value.1, pick.records⟩, { s with registry := pick.value.2 })
  | .listAvailable =>
    let available := s.registry.available host force
    (⟨.available (available.value.map (·.name)), available.records⟩, s)
  | .find name => (⟨.found (s.registry.find name), []⟩, s)
  | .listVariants => (⟨.variants s.registry.variants, []⟩, s)

/-- Answers queries in order. -/
def run (host : Capabilities) (s : Session) : List Query → List (Logged Reply)
  | [] => []
  | q :: rest =>
    let (reply, s) := step host s q
    reply :: run host s rest

end Session

end QuantizedGemm.Registry
