import Cadence.Proofs.Diagnostic.Rendering
import Cadence.Proofs.Source.Additions
import Cadence.Proofs.Style.Screen

/-!
# Diagnostics in color

Every piece of a diagnostic that is painted takes off the layers that it puts on, and all that it
writes comes from the diagnostic, from the source map or from a few fixed texts. So colors change
how the characters look and not which ones there are, and they do not last.
-/
namespace Cadence

open Source (FileName Map MarkedLine)
open Style

/-! ## Texts without escape characters -/

/-- No text of the diagnostic contains an escape character. -/
structure Diagnostic.HasNoEscapes (diagnostic : Diagnostic) : Prop where
  message : ∀ message ∈ diagnostic.message, escape ∉ message.toList
  labels : ∀ highlight ∈ diagnostic.highlights, ∀ label ∈ highlight.label, escape ∉ label.toList
  notes : ∀ note ∈ diagnostic.notes, escape ∉ note.text.toList

/-- No file of the map has an escape character in its name or in its content. -/
def Source.Map.HasNoEscapes (map : Map) : Prop :=
  ∀ file ∈ map.files, escape ∉ file.name.display.toList ∧ escape ∉ file.content

/-- Neither the line of source code nor the label contains an escape character. -/
structure Excerpt.HasNoEscapes (excerpt : Excerpt) : Prop where
  file : escape ∉ excerpt.line.file.display.toList
  content : escape ∉ excerpt.line.content
  label : ∀ label ∈ excerpt.label, escape ∉ label.toList

/-- What is shown of a highlight comes from a file of the map. -/
theorem Source.Map.exists_of_markedLine? {map : Map} {span : Source.Span} {line : MarkedLine}
    (marked : map.markedLine? span = some line) :
    ∃ file ∈ map.files, line.file = file.name ∧ ∀ character ∈ line.content, character ∈ file.content := by
  simp only [markedLine?, locate?, file?, Option.bind_eq_bind, Option.bind_eq_some_iff,
    Option.pure_def, Option.some.injEq, Prod.exists, Prod.mk.injEq] at marked
  obtain ⟨_, _, ⟨file, found, _, _, rfl, rfl⟩, _, _, content, sliced, _, _, _, _, _, _, rfl⟩ := marked
  have member : file ∈ map.files := by
    split at found
    · cases found
    · exact List.mem_of_find?_eq_some found
  refine ⟨file, member, rfl, fun character inside => ?_⟩
  obtain ⟨before, behind, cut, _⟩ := Source.slice?_eq_some_iff.mp sliced
  rw [cut]
  simp [inside]

theorem escape_notMem_append {first second : String} (one : escape ∉ first.toList)
    (other : escape ∉ second.toList) : escape ∉ (first ++ second).toList := by
  rw [String.toList_append, List.mem_append, not_or]
  exact ⟨one, other⟩

theorem escape_notMem_blanks (count : Nat) : escape ∉ (blanks count).toList := by
  simp [blanks, escape]

theorem escape_notMem_toString (number : Nat) : escape ∉ (toString number).toList := by
  intro member
  rw [Nat.toString_eq_repr, Nat.toList_repr] at member
  have isDigit := Nat.isDigit_of_mem_toDigits (by decide) (by decide) member
  revert isDigit
  decide

theorem escape_notMem_codeName (code : ErrorCode) : escape ∉ code.name.toList := by
  refine escape_notMem_append ?_ (escape_notMem_toString _)
  split <;> decide

theorem escape_notMem_marks (excerpt : Excerpt) : escape ∉ excerpt.marks.toList := by
  have underline :
      escape ∉ (String.ofList (List.replicate excerpt.line.width excerpt.role.underline)).toList := by
    have other : escape ≠ excerpt.role.underline := by cases excerpt.role <;> decide
    simp [other]
  rw [Excerpt.marks]
  split
  · exact escape_notMem_append (escape_notMem_append (by decide) (escape_notMem_blanks _)) (by decide)
  · exact escape_notMem_append (escape_notMem_append (by decide) (escape_notMem_blanks _)) underline

/-- The lines of a text have no other characters than the text. -/
theorem escape_notMem_lines {text : String} (free : escape ∉ text.toList) :
    ∀ line ∈ (text.toList.splitOn '\n').map String.ofList, escape ∉ line.toList := by
  intro line member inside
  obtain ⟨piece, isPiece, rfl⟩ := List.mem_map.mp member
  rw [String.toList_ofList] at inside
  obtain ⟨index, isAt⟩ := List.mem_iff_getElem?.mp isPiece
  have between : piece ∈ (text.toList.splitOn '\n').intersperse ['\n'] :=
    List.mem_of_getElem? (List.getElem?_intersperse_two_mul.trans isAt)
  -- with the line feeds between them the lines are the text again
  have whole : ['\n'].intercalate (text.toList.splitOn '\n') = text.toList := List.intercalate_splitOn '\n'
  apply free
  rw [← whole]
  exact List.mem_flatten_of_mem between inside

/-! ## What is painted -/

namespace Diagnostic

variable {diagnostic : Diagnostic} {map : Option Map} {excerpts : List Excerpt}

theorem areTidy_header (free : diagnostic.HasNoEscapes) : AreTidy diagnostic.header := by
  have title : escape ∉ diagnostic.severity.title.toList := by
    cases diagnostic.severity <;> decide
  refine ((AreTidy.styled title _).append ?code).append ?message
  case code =>
    split
    · exact .styled (escape_notMem_append (escape_notMem_append (by decide)
        (escape_notMem_codeName _)) (by decide)) _
    · exact .nil
  case message =>
    split
    next message given =>
      exact (AreTidy.write (by decide)).append (.styled (free.message message given) _)
    next => exact .nil

theorem areTidy_bar (margin : Nat) : AreTidy (bar margin) :=
  (AreTidy.write (by decide)).append
    (.styled (escape_notMem_append (escape_notMem_blanks _) (by decide)) _)

theorem areTidy_fileName {name : FileName} (free : escape ∉ name.display.toList) :
    AreTidy (fileName name) := by
  cases name with
  | anonymous => exact .styled (by decide) _
  | path | virtual => exact .write free

theorem areTidy_locationRow {line : MarkedLine} (free : escape ∉ line.file.display.toList)
    (margin : Nat) (connected : Bool) : AreTidy (locationRow margin line connected) := by
  have corner : escape ∉ (blanks margin ++ (if connected then " ├─ " else " ┌─ ")).toList := by
    refine escape_notMem_append (escape_notMem_blanks _) ?_
    split <;> decide
  have location : escape ∉ (":" ++ line.location.text).toList :=
    escape_notMem_append (by decide) (escape_notMem_append (escape_notMem_append
      (escape_notMem_toString _) (by decide)) (escape_notMem_toString _))
  have row := (((AreTidy.write corner).append (areTidy_fileName free)).append
    (.write location)).within (.ofColor Palette.frame)
  have lineFeed : AreTidy [.write "\n"] := .write (by decide)
  simpa [locationRow] using lineFeed.append row

theorem areTidy_excerptRows {excerpt : Excerpt} (free : excerpt.HasNoEscapes) (severity : Severity)
    (margin : Nat) : AreTidy (excerptRows severity margin excerpt) := by
  have number : escape ∉ (alignedNumber margin excerpt.line.location.line ++ " │").toList :=
    escape_notMem_append (escape_notMem_append (escape_notMem_blanks _)
      (escape_notMem_toString _)) (by decide)
  have content : escape ∉ (" " ++ String.ofList excerpt.line.content).toList :=
    escape_notMem_append (by decide) (by simpa using free.content)
  have label : escape ∉ ((excerpt.label.map (" " ++ ·)).getD "").toList := by
    cases given : excerpt.label with
    | none => decide
    | some label => exact escape_notMem_append (by decide) (free.label label given)
  have marks := ((AreTidy.write (escape_notMem_marks excerpt)).append (.write label)).within
    (.ofColor (excerpt.role.color severity))
  exact (((((areTidy_bar margin).append (.write (by decide))).append (.styled number _)).append
    (.write content)).append (areTidy_bar margin)).append marks

theorem areTidy_excerptsRows (free : ∀ excerpt ∈ excerpts, excerpt.HasNoEscapes)
    (severity : Severity) (margin : Nat) (hasNotes connected : Bool) :
    AreTidy (excerptsRows severity margin hasNotes connected excerpts) := by
  induction excerpts generalizing connected with
  | nil => exact .nil
  | cons excerpt rest ih =>
    obtain ⟨own, others⟩ := List.forall_mem_cons.mp free
    refine (((areTidy_locationRow own.file _ _).append (areTidy_excerptRows own _ _)).append ?_).append
      (ih others true)
    split
    · exact areTidy_bar margin
    · exact .nil

theorem areTidy_noteRows {note : Note} (free : escape ∉ note.text.toList) (margin : Nat) :
    AreTidy (noteRows margin note) := by
  have lines := escape_notMem_lines free
  have title : escape ∉ note.kind.title.toList := by cases note.kind <;> decide
  have first : escape ∉ (((note.text.toList.splitOn '\n').map String.ofList).headD "").toList := by
    cases same : (note.text.toList.splitOn '\n').map String.ofList with
    | nil => decide
    | cons line rest => exact lines line (by rw [same]; exact List.mem_cons_self)
  refine (((((AreTidy.write (escape_notMem_append (by decide) (escape_notMem_blanks _))).append
    (.styled title _)).append ((AreTidy.write (by decide)).append (.write first)))).append
      (.flatMap ?_))
  intro line member
  have indented : escape ∉ (blanks margin ++ blanks (note.kind.title.length + 1) ++ " " ++ line).toList :=
    escape_notMem_append (escape_notMem_append (escape_notMem_append (escape_notMem_blanks _)
      (escape_notMem_blanks _)) (by decide)) (lines line (List.mem_of_mem_tail member))
  exact (AreTidy.write (by decide)).append (.write indented)

theorem areTidy_of_strokes? (free : diagnostic.HasNoEscapes)
    (freeMap : ∀ known ∈ map, known.HasNoEscapes) {strokes : List Stroke}
    (painted : diagnostic.strokes? map = some strokes) : AreTidy strokes := by
  obtain ⟨excerpts, found, same⟩ := Option.bind_eq_some_iff.mp painted
  obtain rfl := Option.some.inj same
  have shown : ∀ excerpt ∈ excerpts, excerpt.HasNoEscapes := by
    intro excerpt member
    obtain ⟨index, isAt⟩ := List.mem_iff_getElem?.mp member
    obtain ⟨highlight, isHighlight, ⟨known, isMap, marked⟩, -, label⟩ := getElem?_excerpts? found isAt
    obtain ⟨file, isFile, name, content⟩ := Source.Map.exists_of_markedLine? marked
    obtain ⟨freeName, freeContent⟩ := freeMap known isMap file isFile
    refine ⟨name ▸ freeName, fun inside => freeContent (content _ inside), ?_⟩
    rw [label]
    exact free.labels highlight (List.mem_of_getElem? isHighlight)
  exact ((areTidy_header free).append (areTidy_excerptsRows shown _ _ _ _)).append
    (.flatMap fun note member => areTidy_noteRows (free.notes note member) _)

end Diagnostic

open Diagnostic (areTidy_of_strokes?)

/-- On a terminal that knows no layers every written character is shown in the style of the layers
that are on when it is written, put on from the bottom to the top, and in the end those that are left
on are in force. Without colors there is nothing but what is written. As diagnostics take off all
layers, a diagnostic in color is the one without colors apart from its escape sequences, no style is
in force behind it, and it is there if all its places lie in files of the map. -/
theorem painted_layers_are_shown :
    (∀ strokes : List Stroke, escape ∉ written strokes →
      Screen.ofText (paint true strokes) =
        { cells := inked [] strokes, style := .ofLayers (layersBehind [] strokes) }) ∧
    (∀ strokes : List Stroke, paint false strokes = written strokes) ∧
    ∀ (diagnostic : Diagnostic) (map : Option Map), diagnostic.HasNoEscapes →
      (∀ known ∈ map, known.HasNoEscapes) →
        (diagnostic.render? map true).map (fun text => withoutSequences text.toList) =
            (diagnostic.render? map false).map String.toList ∧
          (∀ text ∈ diagnostic.render? map true, (Screen.ofText text.toList).style = .plain ∧
            (Screen.ofText text.toList).pending = none) ∧
          ∀ texts, map = some (.ofTexts texts) → diagnostic.AllPlaces (Map.ofTexts texts).Holds →
            (diagnostic.render? map true).isSome = true := by
  have shown (strokes : List Stroke) (free : escape ∉ written strokes) :
      Screen.ofText (paint true strokes) =
        { cells := inked [] strokes, style := .ofLayers (layersBehind [] strokes) } :=
    Screen.receiveAll_paintFrom [] strokes [] free
  refine ⟨shown, paintFrom_uncolored [], ?_⟩
  intro diagnostic map free freeMap
  refine ⟨?same, ?ends, ?shows⟩
  case same =>
    rw [Diagnostic.render?, Diagnostic.render?, Option.map_map, Option.map_map]
    apply Option.map_congr
    intro strokes painted
    have tidy := areTidy_of_strokes? free freeMap painted
    simpa using withoutSequences_paint tidy.free
  case ends =>
    intro text isText
    obtain ⟨strokes, painted, rfl⟩ := Option.map_eq_some_iff.mp isText
    have tidy := areTidy_of_strokes? free freeMap painted
    rw [String.toList_ofList, shown strokes tidy.free, tidy.layersBehind_eq]
    exact ⟨rfl, rfl⟩
  case shows =>
    rintro texts rfl places
    exact Diagnostic.isSome_render? (Source.Map.isLaidOut_ofTexts texts).spaced places true

/-- A plain layer between two others, with a layer taken off when there is none, and a diagnostic with
a place. -/
theorem plain_layer_is_taken_off :
    let red : Color := ⟨.red, false⟩
    let strokes : List Stroke := [.unset, .set (.ofColor red), .set .plain, .set .onlyBold, .write "a",
      .unset, .write "b", .unset, .write "c"]
    let map := Map.ofTexts [(.anonymous, "let".toList)]
    let diagnostic := (Diagnostic.error .e010 "found ‘let’").pointAt ⟨1, 4⟩ "here"
    escape ∉ written strokes ∧
      Screen.ofText (paint true strokes) = {
        cells := [('a', .boldColor red), ('b', .ofColor red), ('c', .ofColor red)]
        style := .ofColor red } ∧
      diagnostic.HasNoEscapes ∧ map.HasNoEscapes ∧ diagnostic.AllPlaces map.Holds ∧
      (diagnostic.render? (some map) true).isSome = true := by
  intro red strokes map diagnostic
  obtain ⟨shown, -, rendered⟩ := painted_layers_are_shown
  have free : escape ∉ written strokes := by decide
  have freeDiagnostic : diagnostic.HasNoEscapes := ⟨by decide, by decide, by decide⟩
  have freeMap : map.HasNoEscapes := by
    have : ∀ file ∈ map.files, escape ∉ file.name.display.toList ∧ escape ∉ file.content := by
      decide +kernel
    exact this
  have places : diagnostic.AllPlaces map.Holds := by
    refine List.forall_mem_singleton.mpr ⟨⟨.anonymous, "let".toList, 1⟩, by decide +kernel, ?_⟩
    exact ⟨"let".toList, [], [], by decide, by decide⟩
  obtain ⟨-, -, isSome⟩ := rendered diagnostic (some map) freeDiagnostic (by simpa using freeMap)
  exact ⟨free, shown strokes free, freeDiagnostic, freeMap, places, isSome _ rfl places⟩

end Cadence
