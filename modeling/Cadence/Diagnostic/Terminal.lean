import Cadence.Diagnostic.Render
import Cadence.Text.Listing

/-!
# Diagnostics on a terminal

Information on the progress is shown at once, if at all. Warnings and errors are held back until the
terminal is flushed. Then the warnings are shown before the errors, each group in order and with a
summary behind it.
-/
namespace Cadence

open Text (inflected)

/-- A piece of what a terminal shows. -/
inductive Shown where
  | text (text : String)
  | diagnostic (diagnostic : Diagnostic)
  deriving DecidableEq, Repr

structure Terminal where
  verbose : Bool := false
  /-- The warnings that are held back, in ascending order. -/
  warnings : List Diagnostic := []
  /-- The errors and bugs that are held back, in ascending order. -/
  errors : List Diagnostic := []
  /-- What was shown. -/
  shown : List Shown := []
  deriving DecidableEq, Repr

/-- A warning about the number of warnings. -/
def warningSummary (warnings : List Diagnostic) : Diagnostic :=
  let count := warnings.length
  .warning ("emitted " ++ toString count ++ " " ++ inflected count "warning" "warnings")

/-- An error about the number of errors, which recommends to look up the least of their codes. -/
def errorSummary (errors : List Diagnostic) : Diagnostic :=
  let count := errors.length
  let summary := Diagnostic.plainError
    (inflected count "aborting due to previous error"
      ("aborting due to " ++ toString count ++ " previous errors"))
  let codes := Sorted.ofList (errors.filterMap Diagnostic.code)
  match codes with
  | [] => summary
  | code :: _ =>
    summary.help ("run ‘cadence explain " ++ code.name ++ "’ to learn more about " ++
      inflected codes.length "this" "the first" ++ " error")

/-- What is shown of a group of diagnostics and their summary: nothing of an empty one. -/
def showGroup (summary : List Diagnostic → Diagnostic) (diagnostics : List Diagnostic) :
    List Shown :=
  if diagnostics = [] then []
  else (diagnostics ++ [summary diagnostics]).map .diagnostic

namespace Terminal

def write (terminal : Terminal) (text : String) : Terminal :=
  { terminal with shown := terminal.shown ++ [.text text] }

def report (terminal : Terminal) (diagnostic : Diagnostic) : Terminal :=
  match diagnostic.severity with
  | .bug | .error => { terminal with errors := Sorted.insert diagnostic terminal.errors }
  | .warning => { terminal with warnings := Sorted.insert diagnostic terminal.warnings }
  | .info =>
    if terminal.verbose then { terminal with shown := terminal.shown ++ [.diagnostic diagnostic] }
    else terminal

/-- Show what was held back. -/
def flush (terminal : Terminal) : Terminal :=
  { terminal with
    warnings := []
    errors := []
    shown := terminal.shown ++ showGroup warningSummary terminal.warnings ++
      showGroup errorSummary terminal.errors }

end Terminal

/-- The text of what is shown. A blank line follows a diagnostic. -/
def Shown.render? (map : Option Source.Map) (colored : Bool) : Shown → Option String
  | text content => some content
  | diagnostic found => (found.render? map colored).map (· ++ "\n\n")

/-- The text of all that a terminal has shown, if all highlights can be shown. -/
def Terminal.render? (terminal : Terminal) (map : Option Source.Map) (colored : Bool) :
    Option String :=
  (terminal.shown.mapM (Shown.render? map colored)).map String.join

end Cadence
