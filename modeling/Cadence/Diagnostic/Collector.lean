import Cadence.Diagnostic.Basic

/-!
# Collected diagnostics

A collector counts the errors that are reported to it and keeps every diagnostic once, in order.
Information on the progress is only kept by a verbose collector.
-/
namespace Cadence

structure Collector where
  verbose : Bool := false
  /-- How many errors and bugs were reported, repetitions included. -/
  errorCount : Nat := 0
  /-- The diagnostics in ascending order, each once. -/
  diagnostics : List Diagnostic := []
  deriving DecidableEq, Repr

namespace Collector

def hasErrors (collector : Collector) : Bool := collector.errorCount ≠ 0

/-- Whether a diagnostic is kept. -/
def accepts (collector : Collector) (diagnostic : Diagnostic) : Bool :=
  diagnostic.severity ≠ .info || collector.verbose

/-- Count a diagnostic without keeping it. -/
def count (collector : Collector) (diagnostic : Diagnostic) : Collector :=
  if diagnostic.severity.isError then { collector with errorCount := collector.errorCount + 1 }
  else collector

def report (collector : Collector) (diagnostic : Diagnostic) : Collector :=
  let counted := collector.count diagnostic
  if collector.accepts diagnostic then
    { counted with diagnostics := Sorted.insert diagnostic counted.diagnostics }
  else counted

def reportAll (collector : Collector) (diagnostics : List Diagnostic) : Collector :=
  diagnostics.foldl report collector

end Collector

end Cadence
