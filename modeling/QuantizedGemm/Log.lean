/-!
# Log records

A log record is a level and a line of text. Operations that log return their records beside their
result, in the order in which they arise.
-/

namespace QuantizedGemm

/-- How much a record matters. -/
inductive LogLevel where
  | error
  | warn
  | info
  | debug
  | trace
  deriving DecidableEq, Repr

def LogLevel.name : LogLevel → String
  | error => "ERROR"
  | warn => "WARN"
  | info => "INFO"
  | debug => "DEBUG"
  | trace => "TRACE"

structure LogRecord where
  level : LogLevel
  text : String
  deriving DecidableEq, Repr

def LogRecord.line (r : LogRecord) : String := s!"{r.level.name}: {r.text}"

/-- A result and the records that arose on the way. -/
structure Logged (α : Type) where
  value : α
  records : List LogRecord

namespace Logged

variable {α : Type}

/-- The items that pass a check. Every item is checked. -/
def filter (check : α → Logged Bool) : List α → Logged (List α)
  | [] => ⟨[], []⟩
  | a :: as =>
    let passed := check a
    let rest := filter check as
    ⟨if passed.value then a :: rest.value else rest.value, passed.records ++ rest.records⟩

/-- The first item that passes a check. Items behind it are not checked. -/
def find? (check : α → Logged Bool) : List α → Logged (Option α)
  | [] => ⟨none, []⟩
  | a :: as =>
    let passed := check a
    if passed.value then ⟨some a, passed.records⟩
    else
      let rest := find? check as
      ⟨rest.value, passed.records ++ rest.records⟩

end Logged

end QuantizedGemm
