import Cadence.Source.File
import Cadence.Text.Width

/-!
# Source maps

The files of a session lie next to each other, each behind one byte of padding. The padding keeps
the index zero free, which stands for an unknown place, and leaves room for the index at the end of
the file before. So every byte index above zero, up to the end of the last file, belongs to exactly
one file.
-/
namespace Cadence.Source

/-- Files in the order in which they were added. -/
structure Map where
  files : List File
  deriving DecidableEq, Repr, Inhabited

/-- The first line that a span touches and the part of it that is marked. -/
structure MarkedLine where
  file : FileName
  location : Location
  /-- The text of the line without its line feed. -/
  content : List Char
  /-- The text in front of the marked part. -/
  before : List Char
  /-- The marked part: it ends with the span or with the line, whichever is first. -/
  marked : List Char
  deriving DecidableEq, Repr

namespace MarkedLine

/-- The number of columns in front of the marked part. -/
def indent (line : MarkedLine) : Nat := Text.textWidth line.before

/-- The number of columns of the marked part. -/
def width (line : MarkedLine) : Nat := Text.textWidth line.marked

end MarkedLine

/-- A carriage return in front of a line feed is left out. -/
def withoutReturns : List Char → List Char
  | '\r' :: '\n' :: rest => '\n' :: withoutReturns rest
  | character :: rest => character :: withoutReturns rest
  | [] => []

namespace Map

def empty : Map := ⟨[]⟩

/-- The bytes in front of each file. -/
def padding : Nat := 1

/-- Where the next file will start. -/
def nextStart (map : Map) : Nat :=
  match map.files.getLast? with
  | some file => file.span.stop + padding
  | none => padding

/-- The file that a text becomes when it is added to the map. -/
def place (map : Map) (name : FileName) (text : List Char) : File :=
  ⟨name, withoutReturns text, map.nextStart⟩

/-- Add a text behind all files. -/
def add (map : Map) (name : FileName) (text : List Char) : Map :=
  ⟨map.files ++ [map.place name text]⟩

/-- The first file that does not end in front of the span. A span of unknown place has none. -/
def file? (map : Map) (span : Span) : Option File :=
  if span = .unknown then none
  else map.files.find? fun file => span.start ≤ file.span.stop

/-- A span counted from the start of the file it belongs to, together with that file. -/
def locate? (map : Map) (span : Span) : Option (File × Span) := do
  let file ← map.file? span
  let inner ← file.toLocal? span
  return (file, inner)

/-- The text under a span. -/
def snippet? (map : Map) (span : Span) : Option (List Char) := do
  let (file, inner) ← map.locate? span
  file.slice? inner

/-- The line and the column of an index. -/
def location? (map : Map) (index : Nat) : Option Location := do
  let (file, inner) ← map.locate? (.emptyAt index)
  file.location? inner.start

/-- The first line that a span touches. -/
def markedLine? (map : Map) (span : Span) : Option MarkedLine := do
  let (file, inner) ← map.locate? span
  let line ← file.lineSpan? (file.lineIndex inner.start)
  let content ← file.slice? line
  let before ← file.slice? ⟨line.start, inner.start⟩
  let marked ← file.slice? ⟨inner.start, min inner.stop line.stop⟩
  let location ← file.location? inner.start
  return ⟨file.name, location, content, before, marked⟩

end Map

end Cadence.Source
