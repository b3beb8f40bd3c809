import Cadence.Source.Bytes
import Cadence.Source.Path
import Cadence.Source.Span

/-!
# Source files

A source file knows its text and where in the source map it starts. Indices within it count bytes
from its own start. Its lines are found through the list of the indices at which they start.
-/
namespace Cadence.Source

/-- What a file is called. -/
inductive FileName where
  | anonymous
  | path (path : Path)
  /-- A text that lies in no file. -/
  | virtual (name : String)
  deriving DecidableEq, Repr, Inhabited

def FileName.display : FileName → String
  | .anonymous => "<anonymous>"
  | .path location => location.display
  | .virtual name => name

/-- A line and a column, both counted from one. Columns count characters. -/
structure Location where
  line : Nat
  column : Nat
  deriving DecidableEq, Repr

def Location.text (location : Location) : String :=
  toString location.line ++ ":" ++ toString location.column

/-- A text with a name and a place in a source map. -/
structure File where
  name : FileName
  content : List Char
  start : Nat
  deriving DecidableEq, Repr, Inhabited

/-- The indices at which the lines of a text start, if it starts at `start` itself: there, and
behind each line feed. -/
def lineStartsFrom (start : Nat) : List Char → List Nat
  | [] => [start]
  | character :: rest =>
    if character = '\n' then start :: lineStartsFrom (start + 1) rest
    else
      match lineStartsFrom (start + character.utf8Size) rest with
      | [] => [start]
      | _ :: others => start :: others

namespace File

/-- The indices of the file in its map, its end included. -/
def span (file : File) : Span := ⟨file.start, file.start + byteSize file.content⟩

/-- The span counted from the start of the file, if it does not start in front of it. -/
def toLocal? (file : File) (span : Span) : Option Span :=
  if file.start ≤ span.start ∧ span.IsOrdered then some (span.unshift file.start) else none

/-- The span counted from the start of the map. -/
def toGlobal (file : File) (span : Span) : Span := span.shift file.start

/-- The text under a span that is counted from the start of the file. -/
def slice? (file : File) (span : Span) : Option (List Char) :=
  Source.slice? file.content span.start span.stop

def lineStarts (file : File) : List Nat := lineStartsFrom 0 file.content

/-- The number of the line that an index belongs to, counted from zero. A line feed belongs to the
line that it ends. -/
def lineIndex (file : File) (index : Nat) : Nat :=
  (file.lineStarts.takeWhile (· ≤ index)).length - 1

/-- The span of a line without its line feed. -/
def lineSpan? (file : File) (line : Nat) : Option Span := do
  let start ← file.lineStarts[line]?
  let stop :=
    match file.lineStarts[line + 1]? with
    | some next => next - 1
    | none => byteSize file.content
  return ⟨start, stop⟩

/-- The line and the column of an index between two characters. -/
def location? (file : File) (index : Nat) : Option Location := do
  let line := file.lineIndex index
  let start ← file.lineStarts[line]?
  let before ← file.slice? ⟨start, index⟩
  return ⟨line + 1, before.length + 1⟩

end File

end Cadence.Source
