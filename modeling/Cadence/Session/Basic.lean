import Cadence.Diagnostic.Collector
import Cadence.Diagnostic.Terminal
import Cadence.Session.Pass
import Cadence.Source.File
import Cadence.Symbol.Table
import Cadence.Syntax.Tree

/-!
# Options and results of a session

What is asked of a session, and what it says on the way: diagnostics and texts, in the order in
which they come up.
-/
namespace Cadence

structure SessionOptions where
  /-- Whether to show the tokens of each file. -/
  emitTokens : Bool := false
  /-- Whether to show the syntax tree of each file. -/
  emitTrees : Bool := false
  /-- Whether to show the symbols in the end. -/
  emitSymbols : Bool := false
  /-- Whether to show which passes took their time. -/
  timing : Bool := false
  /-- The last pass to run. -/
  haltAfter : Option Pass := none
  deriving DecidableEq, Repr

/-- Whether nothing is to be done behind a pass. -/
def SessionOptions.haltsAfter (options : SessionOptions) (pass : Pass) : Bool :=
  (options.haltAfter.map fun last => decide (last.rank ≤ pass.rank)).getD false

/-- What a session says. -/
inductive Event where
  | report (diagnostic : Diagnostic)
  | write (text : String)
  deriving DecidableEq, Repr

namespace Event

def info (message : String) : Event := .report (.info message)

def diagnostic? : Event → Option Diagnostic
  | report diagnostic => some diagnostic
  | write _ => none

/-- Whether something went wrong. -/
def isError (event : Event) : Bool :=
  (event.diagnostic?.map fun diagnostic => diagnostic.severity.isError).getD false

end Event

/-- A file and its syntax trees. -/
structure ParsedFile where
  file : Source.File
  nodes : List Node
  deriving BEq, Repr

/-- A group of files that belong together and their symbols. -/
structure CheckedUnit where
  files : List ParsedFile
  table : SymbolTable
  deriving BEq, Repr

/-- Collect the diagnostics of some events. -/
def Collector.record (collector : Collector) (events : List Event) : Collector :=
  collector.reportAll (events.filterMap Event.diagnostic?)

/-- Show some events on a terminal. -/
def Terminal.record (terminal : Terminal) (events : List Event) : Terminal :=
  events.foldl (fun terminal event =>
    match event with
    | .report diagnostic => terminal.report diagnostic
    | .write text => terminal.write text) terminal

end Cadence
