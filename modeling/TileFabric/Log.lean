import TileFabric.Diagnostic

/-!
# The log

A `Log` keeps diagnostics in the order in which they came in. Its error count is of everything
ever added, so it outlives a `drain`, while `count` looks at what the log still holds. A counter of
a machine word would start again from zero after its last value; that is left out, and the error
count has no bound.
-/

set_option autoImplicit false

namespace TileFabric

structure Log where
  entries : Array Diagnostic
  errorCount : Nat
  deriving DecidableEq, Repr, Inhabited

namespace Log

def empty : Log := ⟨#[], 0⟩

def add (log : Log) (d : Diagnostic) : Log :=
  { entries := log.entries.push d
    errorCount := if d.severity.isError then log.errorCount + 1 else log.errorCount }

def hasErrors (log : Log) : Bool := 0 < log.errorCount

/-- How many of the held diagnostics have exactly this severity. -/
def count (log : Log) (s : Severity) : Nat := log.entries.countP (·.severity == s)

/-- Hands over what the log holds. -/
def drain (log : Log) : List Diagnostic × Log := (log.entries.toList, { log with entries := #[] })

end Log

end TileFabric
