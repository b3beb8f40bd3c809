import Cadence.Proofs.Source.Additions

/-!
# Lines and columns

The location of a place in a file is what counting yields: its line is the number of line feeds in
front of it and its column the number of characters behind the last of them, both from one on. So
locations are ordered as the places are. The line that is shown for a part of a file is the piece
between two line feeds in which the part starts.
-/
namespace Cadence.Source

variable {before part behind : List Char}

theorem head?_splitOn (text : List Char) : (text.splitOn '\n').head? = some (firstLine text) := by
  unfold List.splitOn
  induction text with
  | nil => rfl
  | cons character rest ih =>
    rw [List.splitOnP_cons_eq_if_modifyHead]
    by_cases isBreak : character = '\n'
    · simp [isBreak, firstLine_cons]
    · simp [isBreak, ih, firstLine_cons]

theorem length_splitOn (text : List Char) : (text.splitOn '\n').length = text.count '\n' + 1 := by
  unfold List.splitOn
  induction text with
  | nil => rfl
  | cons character rest ih =>
    rw [List.splitOnP_cons_eq_if_modifyHead]
    by_cases isBreak : character = '\n'
    · simp [isBreak, ih]
    · simp [isBreak, ih]

/-- Of the pieces between line feeds, the one around a place has the number of line feeds in front of
the place. -/
theorem getElem?_splitOn (before behind : List Char) :
    ((before ++ behind).splitOn '\n')[before.count '\n']? =
      some (lastLine before ++ firstLine behind) := by
  by_cases isBreak : '\n' ∈ before
  · obtain ⟨front, line, rfl, noBreak, isLast⟩ := exists_earlierLines isBreak
    have number : (front ++ '\n' :: line).count '\n' = (front.splitOn '\n').length := by
      simp [length_splitOn, List.count_eq_zero.mpr noBreak]
    have pieces : (front ++ '\n' :: line ++ behind).splitOn '\n' =
        front.splitOn '\n' ++ (line ++ behind).splitOn '\n' := by
      rw [List.append_assoc]
      exact List.splitOnP_append_cons front (line ++ behind) rfl
    -- all pieces of the front come first, and then the one that the place lies in
    rw [pieces, number, List.getElem?_append_right (Nat.le_refl _), Nat.sub_self,
      ← List.head?_eq_getElem?, head?_splitOn, firstLine_of_notMem noBreak, isLast]
  · rw [List.count_eq_zero.mpr isBreak, ← List.head?_eq_getElem?, head?_splitOn,
      firstLine_of_notMem isBreak, lastLine_eq_self isBreak]

/-- The left location comes first in its file. -/
def Location.Precedes (left right : Location) : Prop :=
  left.line < right.line ∨ left.line = right.line ∧ left.column < right.column

theorem precedes_locationBehind (before : List Char) (present : part ≠ []) :
    (locationBehind before).Precedes (locationBehind (before ++ part)) := by
  unfold locationBehind Location.Precedes
  rw [List.count_append]
  -- with a line feed in between the line is a later one, and otherwise the line goes on
  by_cases isBreak : '\n' ∈ part
  · left
    have more := List.count_pos_iff.mpr isBreak
    dsimp only
    omega
  · right
    have longer := List.length_pos_iff.mpr present
    rw [List.count_eq_zero.mpr isBreak, lastLine_of_notMem isBreak, List.length_append]
    dsimp only
    omega

/-- No character takes less than a byte, and so the numbers of a location are not above the index that
it stands for. -/
theorem locationBehind_le {start : Nat} (positive : 0 < start) (before : List Char) :
    (locationBehind before).line ≤ start + byteSize before ∧
      (locationBehind before).column ≤ start + byteSize before := by
  have breaks : before.count '\n' ≤ before.length := List.count_le_length
  have inLine : (lastLine before).length ≤ before.length := (List.rtakeWhile_suffix _ _).length_le
  have size := length_le_byteSize before
  unfold locationBehind
  dsimp only
  omega

namespace Map

variable {map : Map} {file : File}

/-- A part of a file of the map is looked up in this file. -/
theorem IsSpaced.file?_of_cut (spaced : map.IsSpaced) (member : file ∈ map.files)
    (cut : file.content = before ++ part ++ behind) :
    map.file? ⟨file.start + byteSize before, file.start + byteSize (before ++ part)⟩ = some file :=
  spaced.file?_of_holds member ⟨part, before, behind, cut, rfl⟩

theorem IsSpaced.location?_eq (spaced : map.IsSpaced) (member : file ∈ map.files)
    (cut : file.content = before ++ behind) :
    map.location? (file.start + byteSize before) = some (locationBehind before) := by
  -- the place is an empty part
  have parts : file.content = before ++ [] ++ behind := by rw [List.append_nil, cut]
  have located := locate?_eq (spaced.file?_of_cut member parts)
  rw [List.append_nil] at located
  rw [location?, Span.emptyAt, located]
  exact File.location?_eq cut

end Map

open Map (ofTexts isLaidOut_ofTexts)

/-- Whatever texts a map is made of, the location of a place in one of its files is what counting
line feeds and characters in front of it yields, and a later place has a later location. The first
line of a part of a file is the piece between two line feeds in which the part starts: in front of
the marked part stands what lies in front of the part, and what is marked ends with the part or with
the line, whichever is first. -/
theorem locations_count_lines (texts : List (FileName × List Char)) {file : File}
    (member : file ∈ (ofTexts texts).files) :
    (∀ before behind, file.content = before ++ behind →
      let location : Location := ⟨before.count '\n' + 1, (lastLine before).length + 1⟩
      file.location? (byteSize before) = some location ∧
        (ofTexts texts).location? (file.start + byteSize before) = some location ∧
        location.line ≤ file.start + byteSize before ∧
        location.column ≤ file.start + byteSize before) ∧
    (∀ left right, file.HasBoundary left → file.HasBoundary right → left < right →
      ∃ first second, (ofTexts texts).location? left = some first ∧
        (ofTexts texts).location? right = some second ∧ first.Precedes second) ∧
    ∀ before part behind, file.content = before ++ part ++ behind →
      let span : Span := ⟨file.start + byteSize before, file.start + byteSize (before ++ part)⟩
      let line := lastLine before ++ firstLine (part ++ behind)
      let lineStop := span.start + byteSize (firstLine (part ++ behind))
      (ofTexts texts).markedLine? span = some {
          file := file.name
          location := ⟨before.count '\n' + 1, (lastLine before).length + 1⟩
          content := line
          before := lastLine before
          marked := firstLine part } ∧
        (file.content.splitOn '\n')[before.count '\n']? = some line ∧
        LiesUnder file.start file.content ⟨span.start, min span.stop lineStop⟩ (firstLine part) := by
  have spaced := (isLaidOut_ofTexts texts).spaced
  refine ⟨?_, ?_, ?_⟩
  · intro before behind cut
    exact ⟨File.location?_eq cut, spaced.location?_eq member cut,
      locationBehind_le (spaced.positive file member) before⟩
  · rintro left right ⟨first, isPlace⟩ ⟨second, isLater⟩ forward
    obtain ⟨before, part, behind, cut, size, sizes⟩ :=
      isPlace.exists_part isLater (Nat.sub_le_sub_right (Nat.le_of_lt forward) _)
    -- something lies between the two places
    have present : part ≠ [] := by
      rintro rfl
      rw [byteSize_nil] at sizes
      omega
    have place : file.content = before ++ (part ++ behind) := by rw [cut, List.append_assoc]
    have isLeft : left = file.start + byteSize before := by omega
    have isRight : right = file.start + byteSize (before ++ part) := by
      rw [byteSize_append]
      omega
    rw [isLeft, isRight]
    exact ⟨_, _, spaced.location?_eq member place, spaced.location?_eq member cut,
      precedes_locationBehind before present⟩
  · intro before part behind cut
    obtain ⟨rest, lines⟩ := exists_cut_firstLine cut
    refine ⟨Map.markedLine?_eq (spaced.file?_of_cut member cut) cut, ?_, before, rest, lines, ?_⟩
    · rw [cut, List.append_assoc]
      exact getElem?_splitOn before (part ++ behind)
    · have ends := min_byteSize_firstLine part behind
      simp only [byteSize_append, Span.mk.injEq, true_and]
      omega

/-- The second character of the last line, in a file behind another one: it takes two bytes, and the
part that starts with it goes on to the line feed behind. -/
theorem second_line_is_counted :
    let texts := [(.anonymous, []), (.anonymous, "a\nbäc\n".toList)]
    let file : File := ⟨.anonymous, "a\nbäc\n".toList, 2⟩
    file ∈ (ofTexts texts).files ∧ (ofTexts texts).location? 5 = some ⟨2, 2⟩ ∧
      (file.HasBoundary 5 ∧ file.HasBoundary 7 ∧ ∃ first second,
        (ofTexts texts).location? 5 = some first ∧ (ofTexts texts).location? 7 = some second ∧
        first.Precedes second) ∧
      (ofTexts texts).markedLine? ⟨5, 9⟩ =
        some ⟨.anonymous, ⟨2, 2⟩, "bäc".toList, ['b'], "äc".toList⟩ := by
  intro texts file
  have member : file ∈ (ofTexts texts).files := by decide +kernel
  have left : file.HasBoundary 5 := ⟨by decide, "a\nb".toList, "äc\n".toList, by decide, by decide⟩
  have right : file.HasBoundary 7 := ⟨by decide, "a\nbä".toList, "c\n".toList, by decide, by decide⟩
  obtain ⟨places, order, marks⟩ := locations_count_lines texts member
  exact ⟨member, (places "a\nb".toList "äc\n".toList rfl).2.1,
    ⟨left, right, order 5 7 left right (by decide)⟩,
    (marks "a\nb".toList "äc\n".toList [] rfl).1⟩

end Cadence.Source
