import Cadence.Diagnostic.Code
import Cadence.Diagnostic.Sorted
import Cadence.Source.Span

/-!
# Diagnostics

What a program tells its user about a problem or about its progress: a message, highlighted places
in the source code, and further notes.

Diagnostics are ordered by their highlights first, which puts them into source order, then by
notes, code, message and severity.
-/
namespace Cadence

open Source (Span)

/-- How grave a diagnostic is. -/
inductive Severity where
  /-- A fault of the program itself. -/
  | bug
  | error
  | warning
  /-- A piece of information on the progress. -/
  | info
  deriving DecidableEq, Repr, Ord

namespace Severity

def isError : Severity → Bool
  | bug | error => true
  | warning | info => false

end Severity

/-- Whether a place is what the diagnostic is about, or helps to understand it. -/
inductive Role where
  | primary
  | secondary
  deriving DecidableEq, Repr, Ord

/-- A place in the source code, possibly with a label. -/
structure Highlight where
  span : Span
  role : Role
  label : Option String
  deriving DecidableEq, Repr

/-- Whether a note explains the problem or tells how to solve it. -/
inductive NoteKind where
  | note
  | help
  deriving DecidableEq, Repr, Ord

structure Note where
  kind : NoteKind
  text : String
  deriving DecidableEq, Repr

structure Diagnostic where
  severity : Severity
  code : Option ErrorCode := none
  message : Option String := none
  /-- The highlights in ascending order, each once. -/
  highlights : List Highlight := []
  notes : List Note := []
  deriving DecidableEq, Repr

/-- What is absent comes first. -/
def compareOptions {α : Type} [Ord α] : Option α → Option α → Ordering
  | none, none => .eq
  | none, some _ => .lt
  | some _, none => .gt
  | some left, some right => compare left right

/-- The first difference decides, and a beginning comes before what goes on. -/
def compareLists {α : Type} [Ord α] : List α → List α → Ordering
  | [], [] => .eq
  | [], _ :: _ => .lt
  | _ :: _, [] => .gt
  | left :: lefts, right :: rights => (compare left right).then (compareLists lefts rights)

instance : Ord Highlight where
  compare left right :=
    (left.span.compare right.span).then <|
      (compare left.role right.role).then (compareOptions left.label right.label)

instance : Ord Note where
  compare left right := (compare left.kind right.kind).then (compare left.text right.text)

instance : Ord Diagnostic where
  compare left right :=
    (compareLists left.highlights right.highlights).then <|
      (compareLists left.notes right.notes).then <|
        (compareOptions left.code right.code).then <|
          (compareOptions left.message right.message).then (compare left.severity right.severity)

namespace Diagnostic

def bug (message : String) : Diagnostic := { severity := .bug, message := some message }

def error (code : ErrorCode) (message : String) : Diagnostic :=
  { severity := .error, code := some code, message := some message }

/-- An error that belongs to no class. -/
def plainError (message : String) : Diagnostic := { severity := .error, message := some message }

def warning (message : String) : Diagnostic := { severity := .warning, message := some message }

def info (message : String) : Diagnostic := { severity := .info, message := some message }

def highlight (diagnostic : Diagnostic) (highlight : Highlight) : Diagnostic :=
  { diagnostic with highlights := Sorted.insert highlight diagnostic.highlights }

/-- Point out a place with a label. -/
def pointAt (diagnostic : Diagnostic) (span : Span) (label : String) : Diagnostic :=
  diagnostic.highlight ⟨span, .primary, some label⟩

/-- Point out a place. -/
def pointAtUnlabeled (diagnostic : Diagnostic) (span : Span) : Diagnostic :=
  diagnostic.highlight ⟨span, .primary, none⟩

/-- Refer to another place that helps to understand the diagnostic. -/
def seeAlso (diagnostic : Diagnostic) (span : Span) (label : String) : Diagnostic :=
  diagnostic.highlight ⟨span, .secondary, some label⟩

def addNote (diagnostic : Diagnostic) (note : Note) : Diagnostic :=
  { diagnostic with notes := diagnostic.notes ++ [note] }

/-- Add an explanation. -/
def note (diagnostic : Diagnostic) (text : String) : Diagnostic := diagnostic.addNote ⟨.note, text⟩

/-- Add a way to solve the problem. -/
def help (diagnostic : Diagnostic) (text : String) : Diagnostic := diagnostic.addNote ⟨.help, text⟩

/-- The first place that the diagnostic is about. -/
def primarySpan? (diagnostic : Diagnostic) : Option Span :=
  (diagnostic.highlights.find? fun highlight => highlight.role = .primary).map Highlight.span

end Diagnostic

end Cadence
