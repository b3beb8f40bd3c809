import Cadence.Proofs.Diagnostic.Rendering
import Cadence.Proofs.Source.Locations
import Cadence.Proofs.Style.Screen
import Cadence.Text.Width

/-!
# Rows and columns of a diagnostic

The text of a diagnostic is cut into rows at its line feeds, and the column of a character is the
width of what stands in front of it in its row. All line numbers are aligned to the widest one, so
that every row of an excerpt has its bar in the same column; behind it the source code and the marks
are indented alike, and narrow characters have a mark each.
-/
namespace Cadence

/-! ## Narrow characters

A narrow character takes one column in front of every text that starts with another one, and so a text
of narrow characters has as many columns as characters. -/

namespace Text

/-- In front of a text that joins nothing the character takes a column, and joins nothing itself. -/
def IsNarrow (character : Char) : Prop := Opening.closed.before character = ⟨1, .closed⟩

instance (character : Char) : Decidable (IsNarrow character) :=
  inferInstanceAs (Decidable (_ = _))

/-- A character of ASCII that is shown: a blank or a visible one. -/
def IsPrintable (character : Char) : Prop := 0x20 ≤ character.toNat ∧ character.toNat ≤ 0x7e

instance (character : Char) : Decidable (IsPrintable character) :=
  inferInstanceAs (Decidable (_ ∧ _))

theorem isNarrow_of_isPrintable {character : Char} (printable : IsPrintable character) :
    IsNarrow character := by
  obtain ⟨above, below⟩ := printable
  have other : character ≠ '\n' := by
    rintro rfl
    exact absurd above (by decide)
  have low : character.toNat ≤ 0xa0 := Nat.le_trans below (by decide)
  simp [IsNarrow, Opening.before, low, other]

/-- All characters of the text are narrow. -/
def AreNarrow (text : List Char) : Prop := ∀ character ∈ text, IsNarrow character

namespace AreNarrow

variable {first second text : List Char}

theorem append (one : AreNarrow first) (other : AreNarrow second) : AreNarrow (first ++ second) :=
  List.forall_mem_append.mpr ⟨one, other⟩

theorem replicate {character : Char} (narrow : IsNarrow character) (count : Nat) :
    AreNarrow (List.replicate count character) :=
  fun _ member => List.eq_of_mem_replicate member ▸ narrow

theorem of_isPrintable (printable : ∀ character ∈ text, IsPrintable character) : AreNarrow text :=
  fun character member => isNarrow_of_isPrintable (printable character member)

end AreNarrow

/-- The blank and the characters of frames and underlines. -/
theorem areNarrow_frame : AreNarrow [' ', '│', '─', '═'] := by
  simp only [AreNarrow, List.forall_mem_cons, List.not_mem_nil, false_implies, implies_true, and_true]
  decide +kernel

theorem Columns.prepend_of_isNarrow {character : Char} (narrow : IsNarrow character) (total : Int) :
    prepend character ⟨total, .closed⟩ = ⟨total + 1, .closed⟩ := by
  have alone : Opening.closed.withoutPictureSelector.before character = ⟨1, .closed⟩ := narrow
  simp [prepend, Opening.pictureColumns?, alone]

theorem textWidth_eq_length {text : List Char} (narrow : AreNarrow text) :
    textWidth text = text.length := by
  have columns : text.foldr Columns.prepend .empty = ⟨text.length, .closed⟩ := by
    induction text with
    | nil => rfl
    | cons character rest ih =>
      obtain ⟨own, others⟩ := List.forall_mem_cons.mp narrow
      rw [List.foldr_cons, ih others, Columns.prepend_of_isNarrow own, List.length_cons]
      rfl
  rw [textWidth, columns, Int.toNat_natCast]

end Text

open Source (byteSize firstLine lastLine firstLine_of_notMem FileName Map)
open Style (Stroke written)
open Text (textWidth textWidth_eq_length AreNarrow IsNarrow IsPrintable areNarrow_frame)

/-! ## Rows -/

/-- In a row a character stands behind so many columns. -/
def HasMark (rows : List (List Char)) (mark : Char) (row column : Nat) : Prop :=
  ∃ front back, rows[row]? = some (front ++ mark :: back) ∧ textWidth front = column

/-- A row consists of three parts. In the next one marks stand exactly in the columns of the part in
the middle, one for each of its characters. -/
def IsUnderlined (rows : List (List Char)) (mark : Char) (row : Nat) (front marked back : List Char) :
    Prop :=
  rows[row]? = some (front ++ marked ++ back) ∧
    ∃ indent rest, rows[row + 1]? = some (indent ++ List.replicate marked.length mark ++ rest) ∧
      (∀ count ≤ marked.length, textWidth (front ++ marked.take count) =
        textWidth (indent ++ List.replicate count mark)) ∧
      mark ∉ indent ∧ rest.head? ≠ some mark

/-- The row behind a line feed goes up to the next one. -/
theorem getElem?_row (above behind : List Char) :
    ((above ++ '\n' :: behind).splitOn '\n')[above.count '\n' + 1]? = some (firstLine behind) := by
  have found := Source.getElem?_splitOn (above ++ ['\n']) behind
  have none : lastLine (above ++ ['\n']) = [] := List.rtakeWhile_concat_neg _ _ _ (by simp)
  simpa [none] using found

theorem firstLine_indented (column : Nat) {mark : Char} (other : mark ≠ '\n') (behind : List Char) :
    firstLine (List.replicate column ' ' ++ mark :: behind) =
      List.replicate column ' ' ++ mark :: firstLine behind := by
  rw [firstLine_of_notMem (by simp), Source.firstLine_cons, if_neg other]

theorem areNarrow_blanks (count : Nat) : AreNarrow (List.replicate count ' ') :=
  .replicate (areNarrow_frame _ (by decide)) count

theorem textWidth_blanks (count : Nat) : textWidth (List.replicate count ' ') = count := by
  rw [textWidth_eq_length (areNarrow_blanks count), List.length_replicate]

theorem hasMark_row (above behind : List Char) {mark : Char} (other : mark ≠ '\n') (column : Nat) :
    HasMark ((above ++ '\n' :: (List.replicate column ' ' ++ mark :: behind)).splitOn '\n') mark
      (above.count '\n' + 1) column := by
  refine ⟨List.replicate column ' ', firstLine behind, ?_, textWidth_blanks column⟩
  rw [getElem?_row, firstLine_indented column other]

/-- There is nothing, or a new row. -/
def StartsRow (text : List Char) : Prop := ∀ character ∈ text.head?, character = '\n'

namespace StartsRow

variable {first second : List Char}

theorem append (one : StartsRow first) (other : StartsRow second) : StartsRow (first ++ second) := by
  cases first with
  | nil => exact other
  | cons character rest => exact one

theorem firstLine_eq (starts : StartsRow first) : firstLine first = [] := by
  cases first with
  | nil => rfl
  | cons character rest =>
    obtain rfl := starts character rfl
    rw [Source.firstLine_cons, if_pos rfl]

end StartsRow

/-! ## Line numbers -/

theorem decimalWidth_mono {first second : Nat} (ordered : first ≤ second) :
    decimalWidth first ≤ decimalWidth second := by
  have positive : 0 < decimalWidth second := Nat.length_toDigits_pos
  have inside := (Nat.length_toDigits_le_iff (b := 10) (by decide) positive).mp (Nat.le_refl _)
  exact (Nat.length_toDigits_le_iff (by decide) positive).mpr (Nat.lt_of_le_of_lt ordered inside)

namespace Diagnostic

/-- The frame is wide enough for every line number. -/
theorem decimalWidth_le_margin {excerpts : List Excerpt} {excerpt : Excerpt}
    (member : excerpt ∈ excerpts) : decimalWidth excerpt.line.location.line ≤ margin excerpts := by
  have isNumber := List.mem_map_of_mem (f := fun excerpt => excerpt.line.location.line) member
  rw [margin]
  split
  next line isMax => exact decimalWidth_mono ((List.max?_eq_some_iff.mp isMax).2 _ isNumber)
  next isEmpty =>
    rw [List.max?_eq_none_iff.mp isEmpty] at isNumber
    cases isNumber

end Diagnostic

theorem toList_alignedNumber (width number : Nat) : (alignedNumber width number).toList =
    List.replicate (width - decimalWidth number) ' ' ++ Nat.toDigits 10 number := by
  simp [alignedNumber, blanks, Nat.toString_eq_repr, Nat.toList_repr]

theorem length_alignedNumber {width number : Nat} (fits : decimalWidth number ≤ width) :
    (alignedNumber width number).toList.length = width := by
  rw [toList_alignedNumber, List.length_append, List.length_replicate]
  exact Nat.sub_add_cancel fits

theorem isPrintable_alignedNumber (width number : Nat) :
    ∀ character ∈ (alignedNumber width number).toList, IsPrintable character := by
  intro character member
  rw [toList_alignedNumber] at member
  rcases List.mem_append.mp member with blank | digit
  · obtain ⟨-, rfl⟩ := List.mem_replicate.mp blank
    exact ⟨by decide, by decide⟩
  · have isDigit := Nat.isDigit_of_mem_toDigits (by decide) (by decide) digit
    obtain ⟨above, below⟩ := Char.isDigit_iff_toNat.mp isDigit
    exact ⟨Nat.le_trans (by decide) above, Nat.le_trans below (by decide)⟩

/-! ## What is written -/

namespace Diagnostic

/-- The character that ties the row of a location to the frame. -/
def cornerMark (connected : Bool) : Char := if connected then '├' else '┌'

theorem written_bar (margin : Nat) :
    written (bar margin) = '\n' :: (List.replicate (margin + 1) ' ' ++ ['│']) := by
  simp [bar, blanks, List.replicate_succ']

theorem written_locationRow (margin : Nat) (line : Source.MarkedLine) (connected : Bool) :
    ∃ rest, written (locationRow margin line connected) =
      '\n' :: (List.replicate (margin + 1) ' ' ++ cornerMark connected :: rest) := by
  refine ⟨['─', ' '] ++ written (fileName line.file) ++ ':' :: line.location.text.toList, ?_⟩
  cases connected <;> simp [locationRow, blanks, cornerMark, List.replicate_succ']

/-- The characters of a label, which is set off from the marks. -/
def labelText (excerpt : Excerpt) : List Char := ((excerpt.label.map (" " ++ ·)).getD "").toList

theorem written_excerptRows (severity : Severity) (margin : Nat) (excerpt : Excerpt) :
    written (excerptRows severity margin excerpt) =
      '\n' :: (List.replicate (margin + 1) ' ' ++ ['│']) ++
      '\n' :: ((alignedNumber margin excerpt.line.location.line).toList ++ [' ', '│', ' '] ++
        excerpt.line.content) ++
      '\n' :: (List.replicate (margin + 1) ' ' ++ ['│'] ++ excerpt.marks.toList ++
        labelText excerpt) := by
  simp [excerptRows, written_bar, labelText]

theorem startsRow_bar (margin : Nat) : StartsRow (written (bar margin)) := by
  simp [StartsRow, written_bar]

theorem startsRow_excerptsRows (severity : Severity) (margin : Nat) (hasNotes connected : Bool)
    (excerpts : List Excerpt) :
    StartsRow (written (excerptsRows severity margin hasNotes connected excerpts)) := by
  cases excerpts with
  | nil => simp [excerptsRows, StartsRow]
  | cons excerpt rest =>
    obtain ⟨tail, same⟩ := written_locationRow margin excerpt.line connected
    simp [StartsRow, excerptsRows, same]

theorem startsRow_notes (margin : Nat) (notes : List Note) :
    StartsRow (written (notes.flatMap (noteRows margin))) := by
  cases notes with
  | nil => simp [StartsRow]
  | cons note rest => simp [StartsRow, noteRows]

/-- The excerpts in front of others are followed by a bar each. -/
theorem excerptsRows_append (severity : Severity) (margin : Nat) (hasNotes connected : Bool)
    (front : List Excerpt) {rest : List Excerpt} (present : rest ≠ []) :
    excerptsRows severity margin hasNotes connected (front ++ rest) =
      excerptsRows severity margin true connected front ++
        excerptsRows severity margin hasNotes (connected || !front.isEmpty) rest := by
  induction front generalizing connected with
  | nil => simp [excerptsRows]
  | cons first others ih => simp [excerptsRows, ih, present]

/-! ## The rows of an excerpt -/

theorem splitOn_row (above behind : List Char) :
    (above ++ '\n' :: behind).splitOn '\n' = above.splitOn '\n' ++ behind.splitOn '\n' :=
  List.splitOnP_append_cons above behind rfl

theorem lineFeed_notMem_alignedNumber (width number : Nat) :
    '\n' ∉ (alignedNumber width number).toList := by
  intro member
  exact absurd (isPrintable_alignedNumber width number _ member).1 (by decide)

/-- The characters between a line number and the source code. -/
theorem areNarrow_separator : AreNarrow [' ', '│', ' '] := by
  have inside : [' ', '│', ' '] ⊆ [' ', '│', '─', '═'] := by simp
  exact fun character member => areNarrow_frame character (inside member)

variable {margin : Nat} {excerpt : Excerpt}

/-- A bar, the line of source code with its number, and the row of the marks, in which the label
follows and whatever stands below the excerpt up to its first line feed. -/
theorem getElem?_excerptRows (severity : Severity) (margin : Nat)
    (oneLine : '\n' ∉ excerpt.line.content) (above below : List Char) :
    let rows := (above ++ written (excerptRows severity margin excerpt) ++ below).splitOn '\n'
    rows[above.count '\n' + 1]? = some (List.replicate (margin + 1) ' ' ++ ['│']) ∧
      rows[above.count '\n' + 2]? = some ((alignedNumber margin excerpt.line.location.line).toList ++
        [' ', '│', ' '] ++ excerpt.line.content) ∧
      rows[above.count '\n' + 3]? = some (List.replicate (margin + 1) ' ' ++
        '│' :: firstLine (excerpt.marks.toList ++ labelText excerpt ++ below)) := by
  have bar : '\n' ∉ List.replicate (margin + 1) ' ' ++ ['│'] := by simp
  have numbered : '\n' ∉ (alignedNumber margin excerpt.line.location.line).toList ++
      [' ', '│', ' '] ++ excerpt.line.content := by
    simp [lineFeed_notMem_alignedNumber, oneLine]
  have last : ((List.replicate (margin + 1) ' ' ++
      '│' :: (excerpt.marks.toList ++ labelText excerpt ++ below)).splitOn '\n').head? =
        some (List.replicate (margin + 1) ' ' ++
          '│' :: firstLine (excerpt.marks.toList ++ labelText excerpt ++ below)) := by
    rw [Source.head?_splitOn, firstLine_indented _ (by decide)]
  have cut : above ++ written (excerptRows severity margin excerpt) ++ below =
      above ++ '\n' :: ((List.replicate (margin + 1) ' ' ++ ['│']) ++
        '\n' :: ((alignedNumber margin excerpt.line.location.line).toList ++ [' ', '│', ' '] ++
          excerpt.line.content ++
        '\n' :: (List.replicate (margin + 1) ' ' ++ '│' :: (excerpt.marks.toList ++
          labelText excerpt ++ below)))) := by
    simp [written_excerptRows]
  rw [cut, splitOn_row, splitOn_row, splitOn_row, List.splitOn_eq_singleton bar,
    List.splitOn_eq_singleton numbered, ← last, List.head?_eq_getElem?]
  -- the rows above are one more than the line feeds in them
  simp [List.getElem?_append_right, Source.length_splitOn]

/-- In all three rows of an excerpt the bar stands behind the margin and a blank. -/
theorem hasMark_excerptRows (severity : Severity) (oneLine : '\n' ∉ excerpt.line.content)
    (fits : decimalWidth excerpt.line.location.line ≤ margin) (above below : List Char) :
    let bar := above.count '\n' + 1
    ∀ row ∈ [bar, bar + 1, bar + 2], HasMark
      ((above ++ written (excerptRows severity margin excerpt) ++ below).splitOn '\n')
      '│' row (margin + 1) := by
  have numbered : AreNarrow ((alignedNumber margin excerpt.line.location.line).toList ++ [' ']) :=
    .append (.of_isPrintable (isPrintable_alignedNumber _ _)) (areNarrow_blanks 1)
  have width : textWidth ((alignedNumber margin excerpt.line.location.line).toList ++ [' ']) =
      margin + 1 := by
    rw [textWidth_eq_length numbered, List.length_append, length_alignedNumber fits,
      List.length_singleton]
  obtain ⟨first, second, third⟩ := getElem?_excerptRows severity margin oneLine above below
  intro bar row isRow
  simp only [List.mem_cons, List.not_mem_nil, or_false] at isRow
  obtain rfl | rfl | rfl := isRow
  · exact ⟨_, _, first, textWidth_blanks _⟩
  · exact ⟨_, _, by simpa using second, width⟩
  · exact ⟨_, _, third, textWidth_blanks _⟩

/-- Below a line of narrow characters there are as many blanks as characters in front of the marked
ones, and as many marks as marked ones. -/
theorem toList_marks (before : AreNarrow excerpt.line.before) (marked : AreNarrow excerpt.line.marked)
    (present : excerpt.line.marked ≠ []) :
    excerpt.marks.toList = ' ' :: List.replicate excerpt.line.before.length ' ' ++
      List.replicate excerpt.line.marked.length excerpt.role.underline := by
  have indent : excerpt.line.indent = excerpt.line.before.length := textWidth_eq_length before
  have width : excerpt.line.width = excerpt.line.marked.length := textWidth_eq_length marked
  simp [Excerpt.marks, present, blanks, indent, width]

/-- The marks do not go on in the label. -/
theorem head?_behind_marks (excerpt : Excerpt) {below : List Char} (starts : StartsRow below) :
    (firstLine (labelText excerpt ++ below)).head? ≠ some excerpt.role.underline := by
  have other : ' ' ≠ excerpt.role.underline := by cases excerpt.role <;> decide
  cases given : excerpt.label with
  | none =>
    have none : labelText excerpt = [] := by simp [labelText, given]
    simp [none, starts.firstLine_eq]
  | some label =>
    have blank : labelText excerpt = ' ' :: label.toList := by simp [labelText, given]
    simp [blank, Source.firstLine_cons, other]

/-- The line of source code starts in the column in which the blanks in front of the marks start. So
of a line of narrow characters exactly those that are highlighted have marks below them. -/
theorem isUnderlined_excerptRows (severity : Severity) {after : List Char}
    (content : excerpt.line.content = excerpt.line.before ++ excerpt.line.marked ++ after)
    (oneLine : '\n' ∉ excerpt.line.content)
    (before : AreNarrow excerpt.line.before) (marked : AreNarrow excerpt.line.marked)
    (present : excerpt.line.marked ≠ [])
    (fits : decimalWidth excerpt.line.location.line ≤ margin) (above : List Char) {below : List Char}
    (starts : StartsRow below) :
    IsUnderlined ((above ++ written (excerptRows severity margin excerpt) ++ below).splitOn '\n')
      excerpt.role.underline (above.count '\n' + 2)
      ((alignedNumber margin excerpt.line.location.line).toList ++ [' ', '│', ' '] ++
        excerpt.line.before) excerpt.line.marked after := by
  have isNumber : AreNarrow (alignedNumber margin excerpt.line.location.line).toList :=
    .of_isPrintable (isPrintable_alignedNumber _ _)
  -- what stands in front of the part on its own row is as wide as what stands in front of the marks
  have front := (isNumber.append areNarrow_separator).append before
  have indent := ((areNarrow_blanks margin).append areNarrow_separator).append
    (areNarrow_blanks excerpt.line.before.length)
  have other : excerpt.role.underline ≠ ' ' ∧ excerpt.role.underline ≠ '│' ∧
      excerpt.role.underline ≠ '\n' := by
    cases excerpt.role <;> decide
  have underline : IsNarrow excerpt.role.underline := by
    apply areNarrow_frame
    cases excerpt.role <;> decide
  obtain ⟨-, source, marks⟩ := getElem?_excerptRows severity margin oneLine above below
  refine ⟨by simpa [content] using source, List.replicate margin ' ' ++ [' ', '│', ' '] ++
    List.replicate excerpt.line.before.length ' ', firstLine (labelText excerpt ++ below), ?row,
    ?columns, by simp [other], head?_behind_marks excerpt starts⟩
  case row =>
    have noBreak : '\n' ∉ excerpt.marks.toList := by
      simp [toList_marks before marked present, other.2.2.symm]
    rw [marks, List.append_assoc excerpt.marks.toList, firstLine_of_notMem noBreak,
      toList_marks before marked present]
    simp [List.replicate_succ']
  case columns =>
    intro count inside
    have part : AreNarrow (excerpt.line.marked.take count) :=
      fun _ member => marked _ (List.mem_of_mem_take member)
    rw [textWidth_eq_length (front.append part),
      textWidth_eq_length (indent.append (.replicate underline count))]
    simp [length_alignedNumber fits, inside]

theorem hasMark_bar (margin : Nat) (above below : List Char) :
    HasMark ((above ++ written (bar margin) ++ below).splitOn '\n') '│' (above.count '\n' + 1)
      (margin + 1) := by
  have other : '│' ≠ '\n' := by decide
  simpa [written_bar] using hasMark_row above below other (margin + 1)

theorem hasMark_locationRow (margin : Nat) (line : Source.MarkedLine) (connected : Bool)
    (above below : List Char) :
    HasMark ((above ++ written (locationRow margin line connected) ++ below).splitOn '\n')
      (cornerMark connected) (above.count '\n' + 1) (margin + 1) := by
  obtain ⟨rest, same⟩ := written_locationRow margin line connected
  have other : cornerMark connected ≠ '\n' := by cases connected <;> decide
  simpa [same] using hasMark_row above (rest ++ below) other (margin + 1)

/-- The frame of an excerpt: the corner of the row of its location, the bars in the three rows that
show the line of source code, and the bar behind them if there is one. -/
structure IsFramed (rows : List (List Char)) (column : Nat) (connected : Bool) (goesOn : Prop)
    (corner bar joint : Nat) : Prop where
  atCorner : HasMark rows (cornerMark connected) corner column
  atBars : ∀ row ∈ [bar, bar + 1, bar + 2], HasMark rows '│' row column
  atJoint : goesOn → HasMark rows '│' joint column
  corner_lt_bar : corner < bar
  bar_lt_joint : bar + 2 < joint

theorem one_le_count_locationRow (margin : Nat) (line : Source.MarkedLine) (connected : Bool) :
    1 ≤ (written (locationRow margin line connected)).count '\n' := by
  obtain ⟨rest, same⟩ := written_locationRow margin line connected
  simp [same]

theorem three_le_count_excerptRows (severity : Severity) (margin : Nat) (excerpt : Excerpt) :
    3 ≤ (written (excerptRows severity margin excerpt)).count '\n' := by
  simp only [written_excerptRows, List.count_append, List.count_cons_self]
  omega

theorem isFramed_excerpt (severity : Severity) (oneLine : '\n' ∉ excerpt.line.content)
    (fits : decimalWidth excerpt.line.location.line ≤ margin) (connected : Bool) (goesOn : Prop)
    [Decidable goesOn] (above below : List Char) :
    let location := above ++ written (locationRow margin excerpt.line connected)
    let shown := location ++ written (excerptRows severity margin excerpt)
    IsFramed ((shown ++ written (if goesOn then bar margin else []) ++ below).splitOn '\n')
      (margin + 1) connected goesOn (above.count '\n' + 1) (location.count '\n' + 1)
      (shown.count '\n' + 1) where
  atCorner := by
    simpa using hasMark_locationRow margin excerpt.line connected above
      (written (excerptRows severity margin excerpt) ++
        (written (if goesOn then bar margin else []) ++ below))
  atBars := by
    rw [List.append_assoc (_ ++ written (excerptRows _ _ _))]
    exact hasMark_excerptRows severity oneLine fits _ _
  atJoint more := by
    rw [if_pos more]
    exact hasMark_bar margin _ below
  -- the row of the location lies between the corner and the bar
  corner_lt_bar := by
    have := one_le_count_locationRow margin excerpt.line connected
    rw [List.count_append]
    omega
  bar_lt_joint := by
    have := three_le_count_excerptRows severity margin excerpt
    simp only [List.count_append]
    omega

/-! ## The excerpts of a diagnostic -/

/-- What is written in front of the excerpt of the given number. -/
def above (diagnostic : Diagnostic) (excerpts : List Excerpt) (index : Nat) : List Char :=
  written (diagnostic.header ++
    excerptsRows diagnostic.severity (Diagnostic.margin excerpts) true false (excerpts.take index))

variable {excerpts : List Excerpt} {index : Nat}

/-- An excerpt that has others in front of it is connected to them. -/
theorem excerptsRows_take_append (severity : Severity) (margin : Nat) (hasNotes : Bool)
    (shown : excerpts[index]? = some excerpt) (rest : List Excerpt) :
    excerptsRows severity margin hasNotes false (excerpts.take index ++ excerpt :: rest) =
      excerptsRows severity margin true false (excerpts.take index) ++
        excerptsRows severity margin hasNotes (decide (index ≠ 0)) (excerpt :: rest) := by
  have present : excerpts ≠ [] := List.ne_nil_of_mem (List.mem_of_getElem? shown)
  have connected : (false || !(excerpts.take index).isEmpty) = decide (index ≠ 0) := by
    cases index <;> simp [present]
  rw [excerptsRows_append _ _ _ _ _ (List.cons_ne_nil excerpt rest), connected]

theorem above_succ (diagnostic : Diagnostic) (shown : excerpts[index]? = some excerpt) :
    diagnostic.above excerpts (index + 1) = diagnostic.above excerpts index ++
      written (locationRow (Diagnostic.margin excerpts) excerpt.line (decide (index ≠ 0))) ++
      written (excerptRows diagnostic.severity (Diagnostic.margin excerpts) excerpt) ++
      written (bar (Diagnostic.margin excerpts)) := by
  rw [above, List.take_add_one, shown, Option.toList_some, excerptsRows_take_append _ _ _ shown]
  simp [above, excerptsRows]

/-- An excerpt is followed by a bar if other excerpts or notes come behind it, which start new rows. -/
theorem written_strokes (diagnostic : Diagnostic) (shown : excerpts[index]? = some excerpt) :
    ∃ below, StartsRow below ∧ written (diagnostic.header ++
      excerptsRows diagnostic.severity (Diagnostic.margin excerpts) (diagnostic.notes ≠ []) false
        excerpts ++ diagnostic.notes.flatMap (noteRows (Diagnostic.margin excerpts))) =
      diagnostic.above excerpts index ++
        written (locationRow (Diagnostic.margin excerpts) excerpt.line (decide (index ≠ 0))) ++
        written (excerptRows diagnostic.severity (Diagnostic.margin excerpts) excerpt) ++
        written (if diagnostic.notes ≠ [] ∨ index + 1 < excerpts.length then
          bar (Diagnostic.margin excerpts) else []) ++ below := by
  obtain ⟨inside, rfl⟩ := List.getElem?_eq_some_iff.mp shown
  have cut : excerpts = excerpts.take index ++ excerpts[index] :: excerpts.drop (index + 1) := by
    rw [← List.drop_eq_getElem_cons inside, List.take_append_drop]
  refine ⟨_, (startsRow_excerptsRows diagnostic.severity (Diagnostic.margin excerpts)
    (diagnostic.notes ≠ []) true (excerpts.drop (index + 1))).append
      (startsRow_notes (Diagnostic.margin excerpts) diagnostic.notes), ?_⟩
  have rows := excerptsRows_take_append diagnostic.severity (Diagnostic.margin excerpts)
    (diagnostic.notes ≠ []) shown (excerpts.drop (index + 1))
  rw [← cut] at rows
  rw [rows]
  simp [above, excerptsRows]

end Diagnostic

open Diagnostic

/-- What is shown of a place in a file of the map is one line. -/
theorem lineFeed_notMem_content {map : Map} (spaced : map.IsSpaced) {span : Source.Span}
    (holds : map.Holds span) {line : Source.MarkedLine} (marked : map.markedLine? span = some line) :
    '\n' ∉ line.content := by
  obtain ⟨file, member, part, before, behind, cut, rfl⟩ := holds
  rw [Map.markedLine?_eq (spaced.file?_of_cut member cut) cut] at marked
  obtain rfl := Option.some.inj marked
  simp [Source.notMem_lastLine, Source.notMem_firstLine]

theorem areNarrow_of_printable {content line : List Char}
    (printable : ∀ character ∈ content, character = '\n' ∨ IsPrintable character)
    (part : line ⊆ content) (oneLine : '\n' ∉ line) : AreNarrow line :=
  .of_isPrintable fun character member => (printable character (part member)).resolve_left
    (ne_of_mem_of_not_mem member oneLine)

/-- What is highlighted on the first line of a part of a file is underlined where the line is shown. -/
theorem isUnderlined_of_cut {map : Map} (spaced : map.IsSpaced) {file : Source.File}
    (isFile : file ∈ map.files) {before part behind : List Char}
    (cut : file.content = before ++ part ++ behind) {excerpt : Excerpt}
    (marked : map.markedLine? ⟨file.start + byteSize before, file.start + byteSize (before ++ part)⟩ =
      some excerpt.line)
    (printable : ∀ character ∈ file.content, character = '\n' ∨ IsPrintable character)
    (present : firstLine part ≠ []) {margin : Nat}
    (fits : decimalWidth excerpt.line.location.line ≤ margin) (severity : Severity)
    (above : List Char) {below : List Char} (starts : StartsRow below) :
    ∃ after, (file.content.splitOn '\n')[before.count '\n']? =
        some (lastLine before ++ firstLine part ++ after) ∧
      IsUnderlined ((above ++ written (excerptRows severity margin excerpt) ++ below).splitOn '\n')
        excerpt.role.underline (above.count '\n' + 2)
        ((alignedNumber margin (before.count '\n' + 1)).toList ++ [' ', '│', ' '] ++ lastLine before)
        (firstLine part) after := by
  have oneLine := lineFeed_notMem_content spaced ⟨file, isFile, part, before, behind, cut, rfl⟩ marked
  rw [Map.markedLine?_eq (spaced.file?_of_cut isFile cut) cut] at marked
  have line := (Option.some.inj marked).symm
  have isBefore : excerpt.line.before = lastLine before := by rw [line]
  have isMarked : excerpt.line.marked = firstLine part := by rw [line]
  have isNumber : excerpt.line.location.line = before.count '\n' + 1 := by
    rw [line]
    rfl
  have front : AreNarrow (lastLine before) := by
    refine areNarrow_of_printable printable (fun character member => ?_) (Source.notMem_lastLine _)
    rw [cut, List.append_assoc]
    exact List.mem_append_left _ ((List.rtakeWhile_suffix _ _).mem member)
  have inner : AreNarrow (firstLine part) := by
    refine areNarrow_of_printable printable (fun character member => ?_) (Source.notMem_firstLine _)
    rw [cut]
    exact List.mem_append_left _ (List.mem_append_right _ ((List.takeWhile_sublist _).mem member))
  -- the line goes on behind the part that is marked in it
  obtain ⟨after, goes⟩ := Source.exists_firstLine_append_behind part behind
  refine ⟨after, by rw [cut, List.append_assoc, Source.getElem?_splitOn, goes, List.append_assoc], ?_⟩
  have content : excerpt.line.content = excerpt.line.before ++ excerpt.line.marked ++ after := by
    simp [line, goes]
  rw [← isBefore] at front
  rw [← isMarked] at inner present
  have underlined := isUnderlined_excerptRows severity content oneLine front inner present fits above
    starts
  rwa [isBefore, isMarked, isNumber] at underlined

/-- A diagnostic whose places all lie in files of the map is shown, and all marks of its frame stand in
one column, in the order of the highlights. A highlight that is not empty on the first line it touches,
in a file of printable characters of ASCII and line feeds, is underlined there: the line of source code
stands behind its number and the bar, and below it marks take exactly the columns of what is
highlighted. -/
theorem carets_stand_under_marks (texts : List (FileName × List Char)) (diagnostic : Diagnostic)
    (places : diagnostic.AllPlaces (Map.ofTexts texts).Holds) :
    ∃ text margin, diagnostic.render? (some (Map.ofTexts texts)) false = some text ∧
      ∃ corners : Nat → Nat, ∀ index highlight, diagnostic.highlights[index]? = some highlight →
        let rows := text.toList.splitOn '\n'
        let goesOn := index + 1 < diagnostic.highlights.length
        ∃ bar joint, IsFramed rows (margin + 1) (index ≠ 0) (diagnostic.notes ≠ [] ∨ goesOn)
            (corners index) bar joint ∧
          (goesOn → joint < corners (index + 1)) ∧
          ∀ file ∈ (Map.ofTexts texts).files, ∀ before part behind,
            file.content = before ++ part ++ behind →
            highlight.span = ⟨file.start + byteSize before, file.start + byteSize (before ++ part)⟩ →
            (∀ character ∈ file.content, character = '\n' ∨ IsPrintable character) →
            firstLine part ≠ [] →
              let number := alignedNumber margin (before.count '\n' + 1)
              ∃ after, (file.content.splitOn '\n')[before.count '\n']? =
                  some (lastLine before ++ firstLine part ++ after) ∧
                IsUnderlined rows highlight.role.underline (bar + 1)
                  (number.toList ++ [' ', '│', ' '] ++ lastLine before) (firstLine part) after := by
  have spaced := (Source.Map.isLaidOut_ofTexts texts).spaced
  obtain ⟨text, isText⟩ := Option.isSome_iff_exists.mp (isSome_render? spaced places false)
  obtain ⟨strokes, painted, rfl⟩ := Option.map_eq_some_iff.mp isText
  obtain ⟨excerpts, found, same⟩ := Option.bind_eq_some_iff.mp painted
  obtain rfl := Option.some.inj same
  refine ⟨_, Diagnostic.margin excerpts, isText,
    fun index => (diagnostic.above excerpts index).count '\n' + 1, ?_⟩
  intro index highlight isHighlight rows goesOn
  obtain ⟨excerpt, shown, marked, role⟩ := exists_excerpt found isHighlight
  have holds := places highlight (List.mem_of_getElem? isHighlight)
  have oneLine := lineFeed_notMem_content spaced holds marked
  have fits := decimalWidth_le_margin (List.mem_of_getElem? shown)
  -- the rows are those of the text that is cut around the excerpt
  obtain ⟨below, starts, cut⟩ := written_strokes diagnostic shown
  have isRows : rows = (diagnostic.above excerpts index ++
      written (locationRow (Diagnostic.margin excerpts) excerpt.line (decide (index ≠ 0))) ++
      written (excerptRows diagnostic.severity (Diagnostic.margin excerpts) excerpt) ++
      written (if diagnostic.notes ≠ [] ∨ goesOn then bar (Diagnostic.margin excerpts) else []) ++
      below).splitOn '\n' := by
    simp only [rows, String.toList_ofList, Style.paint, Style.paintFrom_uncolored, goesOn,
      ← length_excerpts? found]
    rw [cut]
  rw [isRows]
  refine ⟨_, _, isFramed_excerpt _ oneLine fits _ _ _ _, ?_, ?_⟩
  · intro more
    change _ < (diagnostic.above excerpts (index + 1)).count '\n' + 1
    rw [above_succ diagnostic shown, written_bar]
    simp only [List.count_append, List.count_cons_self]
    omega
  · intro file isFile before part behind content span printable present number
    rw [span] at marked
    have joint : StartsRow (written (if diagnostic.notes ≠ [] ∨ goesOn then
        bar (Diagnostic.margin excerpts) else []) ++ below) := by
      split
      · exact (startsRow_bar _).append starts
      · exact starts
    rw [List.append_assoc (_ ++ written (excerptRows _ _ _)), ← role]
    exact isUnderlined_of_cut spaced isFile content marked printable present fits _ _ joint

/-- The first highlight goes over two lines, and the second one lies on the second of them, whose number
takes another column. -/
theorem carets_stand_on_lines_nine_and_ten :
    let map := Map.ofTexts [(.anonymous, []), (.anonymous, "\n\n\n\n\n\n\n\nlet a\nb".toList)]
    let diagnostic :=
      ((Diagnostic.error .e010 "found").pointAt ⟨14, 17⟩ "here").seeAlso ⟨16, 17⟩ "and here"
    diagnostic.AllPlaces map.Holds ∧
      ∃ text margin, diagnostic.render? (some map) false = some text ∧
        ∃ nine ten, nine + 4 < ten ∧
          IsUnderlined (text.toList.splitOn '\n') '═' nine
            ((alignedNumber margin 9).toList ++ [' ', '│', ' '] ++ "let ".toList) ['a'] [] ∧
          IsUnderlined (text.toList.splitOn '\n') '─' ten
            ((alignedNumber margin 10).toList ++ [' ', '│', ' '] ++ []) ['b'] [] := by
  intro map diagnostic
  let file : Source.File := ⟨.anonymous, "\n\n\n\n\n\n\n\nlet a\nb".toList, 2⟩
  have isFile : file ∈ map.files := by decide +kernel
  have first : file.content = "\n\n\n\n\n\n\n\nlet ".toList ++ "a\nb".toList ++ [] := by decide
  have second : file.content = "\n\n\n\n\n\n\n\nlet a\n".toList ++ ['b'] ++ [] := by decide
  have places : diagnostic.AllPlaces map.Holds := by
    simp only [diagnostic, allPlaces_seeAlso, allPlaces_pointAt, allPlaces_error, and_true]
    exact ⟨⟨file, isFile, ['b'], _, [], second, by decide⟩, file, isFile, "a\nb".toList, _, [], first,
      by decide⟩
  have printable : ∀ character ∈ file.content, character = '\n' ∨ IsPrintable character := by
    have all : file.content.all (fun character => character = '\n' ∨ IsPrintable character) = true := by
      decide
    simpa using all
  obtain ⟨text, margin, isText, corners, marks⟩ := carets_stand_under_marks _ diagnostic places
  obtain ⟨bar, joint, framed, later, underlined⟩ := marks 0 ⟨⟨14, 17⟩, .primary, some "here"⟩ rfl
  obtain ⟨bar', _, framed', _, underlined'⟩ := marks 1 ⟨⟨16, 17⟩, .secondary, some "and here"⟩ rfl
  obtain ⟨after, line, nine⟩ := underlined file isFile _ _ _ first (by decide) printable (by decide)
  obtain ⟨after', line', ten⟩ := underlined' file isFile _ _ _ second (by decide) printable (by decide)
  have isLine : (file.content.splitOn '\n')[8]? = some "let a".toList := by decide
  have isLine' : (file.content.splitOn '\n')[9]? = some "b".toList := by decide
  have same : "let a".toList = "let a".toList ++ after := Option.some.inj (isLine.symm.trans line)
  have same' : ['b'] = ['b'] ++ after' := Option.some.inj (isLine'.symm.trans line')
  obtain rfl := List.self_eq_append_right.mp same
  obtain rfl := List.self_eq_append_right.mp same'
  have ordered : bar + 5 < bar' + 1 := by
    have := framed.bar_lt_joint
    have : joint < corners 1 := later (by decide)
    have := framed'.corner_lt_bar
    omega
  exact ⟨places, text, margin, isText, bar + 1, bar' + 1, ordered, nine, ten⟩


end Cadence
