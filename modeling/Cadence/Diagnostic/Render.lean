import Cadence.Diagnostic.Basic
import Cadence.Source.Map
import Cadence.Style.Paint

/-!
# Diagnostics as text

A diagnostic is shown as a header, one excerpt of the source code per highlight, and its notes. The
excerpts share a frame on the left, which is as wide as the largest line number. Of a highlight
that goes over several lines only the first line is shown.
-/
namespace Cadence

open Source (FileName Map MarkedLine)
open Style (Color Stroke TextStyle styled)

namespace Palette

def frame : Color := ⟨.blue, true⟩

def error : Color := ⟨.red, true⟩

def warning : Color := ⟨.yellow, true⟩

def help : Color := ⟨.cyan, true⟩

def info : Color := ⟨.magenta, true⟩

end Palette

namespace Severity

def title : Severity → String
  | bug => "internal compiler error"
  | error => "error"
  | warning => "warning"
  | info => "info"

def color : Severity → Color
  | bug | error => Palette.error
  | warning => Palette.warning
  | info => Palette.info

end Severity

namespace NoteKind

def title : NoteKind → String
  | note => "note"
  | help => "help"

end NoteKind

namespace Role

/-- What is secondary has a color of its own. -/
def color (role : Role) (severity : Severity) : Color :=
  match role with
  | primary => severity.color
  | secondary => Palette.help

/-- The character that underlines a highlight. -/
def underline : Role → Char
  | primary => '═'
  | secondary => '─'

end Role

/-- A text of spaces. -/
def blanks (count : Nat) : String := String.ofList (List.replicate count ' ')

/-- The number of decimal digits. -/
def decimalWidth (number : Nat) : Nat := (Nat.toDigits 10 number).length

/-- A number that ends in the given column. -/
def alignedNumber (width number : Nat) : String :=
  blanks (width - decimalWidth number) ++ toString number

/-- A highlight together with the line that shows it. -/
structure Excerpt where
  line : MarkedLine
  role : Role
  label : Option String
  deriving DecidableEq, Repr

namespace Excerpt

/-- The marks below the line. What has no width is shown as a cursor between two characters. -/
def marks (excerpt : Excerpt) : String :=
  let line := excerpt.line
  if line.width = 0 then " " ++ blanks (line.indent - 1) ++ "⟩⟨"
  else " " ++ blanks line.indent ++
    String.ofList (List.replicate line.width excerpt.role.underline)

end Excerpt

namespace Diagnostic

/-- The severity, the code and the message. -/
def header (diagnostic : Diagnostic) : List Stroke :=
  let color := diagnostic.severity.color
  styled (.boldColor color) diagnostic.severity.title ++
  (match diagnostic.code with
    | some code => styled (.ofColor color) ("[" ++ code.name ++ "]")
    | none => []) ++
  (match diagnostic.message with
    | some message => .write ": " :: styled .onlyBold message
    | none => [])

/-- The bar that belongs to the frame. -/
def bar (margin : Nat) : List Stroke :=
  .write "\n" :: styled (.ofColor Palette.frame) (blanks margin ++ " │")

/-- The name of a file in the frame. -/
def fileName : FileName → List Stroke
  | .anonymous => styled .onlyItalic "⟨anonymous⟩"
  | .path path => [.write path.display]
  | .virtual name => [.write name]

/-- The row that tells where an excerpt comes from. All but the first one are connected to the
frame above. -/
def locationRow (margin : Nat) (line : MarkedLine) (connected : Bool) : List Stroke :=
  [.write "\n", .set (.ofColor Palette.frame),
    .write (blanks margin ++ (if connected then " ├─ " else " ┌─ "))] ++
  fileName line.file ++ [.write (":" ++ line.location.text), .unset]

/-- The line of source code and the marks below it. -/
def excerptRows (severity : Severity) (margin : Nat) (excerpt : Excerpt) : List Stroke :=
  bar margin ++ [.write "\n"] ++
  styled (.ofColor Palette.frame) (alignedNumber margin excerpt.line.location.line ++ " │") ++
  [.write (" " ++ String.ofList excerpt.line.content)] ++
  bar margin ++
  [.set (.ofColor (excerpt.role.color severity)), .write excerpt.marks,
    .write ((excerpt.label.map (" " ++ ·)).getD ""), .unset]

/-- A note, whose further lines are indented. -/
def noteRows (margin : Nat) (note : Note) : List Stroke :=
  let title := note.kind.title
  let lines := (note.text.toList.splitOn '\n').map String.ofList
  [.write ("\n" ++ blanks margin)] ++ styled (.boldColor Palette.help) title ++
  [.write ": ", .write (lines.headD "")] ++
  lines.tail.flatMap fun line =>
    [.write "\n", .write (blanks margin ++ blanks (title.length + 1) ++ " " ++ line)]

/-- The excerpts and the bars between them. A bar also separates the last one from the notes. -/
def excerptsRows (severity : Severity) (margin : Nat) (hasNotes : Bool) (connected : Bool) :
    List Excerpt → List Stroke
  | [] => []
  | excerpt :: rest =>
    locationRow margin excerpt.line connected ++ excerptRows severity margin excerpt ++
    (if hasNotes ∨ rest ≠ [] then bar margin else []) ++
    excerptsRows severity margin hasNotes true rest

/-- The excerpts that show the highlights. Highlights cannot be shown without a source map, and
those that lie in no file of it not at all. -/
def excerpts? (diagnostic : Diagnostic) (map : Option Map) : Option (List Excerpt) :=
  diagnostic.highlights.mapM fun highlight => do
    let line ← (← map).markedLine? highlight.span
    return ⟨line, highlight.role, highlight.label⟩

/-- The width of the frame: that of the largest line number. -/
def margin (excerpts : List Excerpt) : Nat :=
  match (excerpts.map fun excerpt => excerpt.line.location.line).max? with
  | some line => decimalWidth line
  | none => 1

/-- The diagnostic as it is painted, if its highlights can be shown. -/
def strokes? (diagnostic : Diagnostic) (map : Option Map) : Option (List Stroke) := do
  let excerpts ← diagnostic.excerpts? map
  let margin := margin excerpts
  return diagnostic.header ++
    excerptsRows diagnostic.severity margin (diagnostic.notes ≠ []) false excerpts ++
    diagnostic.notes.flatMap (noteRows margin)

/-- The diagnostic as text, if its highlights can be shown. -/
def render? (diagnostic : Diagnostic) (map : Option Map) (colored : Bool) : Option String :=
  (diagnostic.strokes? map).map fun strokes => String.ofList (Style.paint colored strokes)

end Diagnostic

end Cadence
