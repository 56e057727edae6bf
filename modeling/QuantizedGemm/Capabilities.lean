import QuantizedGemm.Isa
import QuantizedGemm.Log

/-!
# What a host can run

The vector extensions of a processor and the number of its cores.

## Forcing portable code

Forcing portable code hides every vector extension from a probe, so that a run exercises the
portable kernels alone on any host. It does not reach a kernel that is called by itself: that one
asks the host and not a probe.

## Probes

Nothing remembers a probe. Whoever asks what the host runs probes it again, and each probe that is
told to hide the vector extensions says so in the log.
-/

namespace QuantizedGemm

structure Capabilities where
  /-- Logical cores that the process may use. -/
  coreCount : Nat
  sse2 : Bool
  sse41 : Bool
  avx2 : Bool
  neon : Bool
  wasmSimd : Bool
  deriving DecidableEq, Repr

namespace Capabilities

/-- No vector extension, and at least one core. -/
def scalarOnly (coreCount : Nat) : Capabilities :=
  ⟨max coreCount 1, false, false, false, false, false⟩

/-- Whether a processor with these capabilities runs code for `isa`. -/
def supports (c : Capabilities) : Isa → Bool
  | .scalar => true
  | .sse2 => c.sse2
  | .sse41 => c.sse41
  | .avx2 => c.avx2
  | .neonv8 => c.neon
  | .wasmsimd => c.wasmSimd

/-- The extensions in the order of preference. -/
def preference : List Isa := [.avx2, .sse41, .sse2, .neonv8, .wasmsimd]

/-- The first supported extension in the order of preference, and portable code if there is none. -/
def bestIsa (c : Capabilities) : Isa := (preference.find? c.supports).getD .scalar

/-- The host that the kernels of this library are written for. -/
def x86Host (coreCount : Nat) : Capabilities := ⟨coreCount, true, true, true, false, false⟩

/-- The record of a probe that hides the vector extensions. -/
def forcedRecord : LogRecord :=
  ⟨.debug, "IGEMM_FORCE_SCALAR set: reporting scalar-only capabilities"⟩

/-- What a probe of `host` reports: all of its extensions, or none where portable code is forced. -/
def probe (host : Capabilities) (forceScalar : Bool) : Logged Capabilities :=
  if forceScalar then ⟨scalarOnly host.coreCount, [forcedRecord]⟩ else ⟨host, []⟩

def summary (c : Capabilities) : String := s!"cores={c.coreCount} best={c.bestIsa.tag}"

end Capabilities

end QuantizedGemm
