import Cadence.Proofs.Token.Faults
import Cadence.Source.Map
import Mathlib.Data.List.DropRight

/-!
# Places in a text and its lines

A text can be cut at the boundaries of its characters only. The line of a place is looked up in the
table of the indices at which lines start. For a text that is cut at the place, this is the table of
the part in front of it, followed by that of the part behind it without its first entry: what the
place needs to know are the length and the last entry of the one and the second entry of the other.
So the first line of each part of a file is found, and it can be cut in front of the part and where
the part or the line ends.
-/
namespace Cadence

open Source (File Span byteSize byteSize_append)

namespace Source

/-- The index lies between two characters of the text or at one of its ends. -/
def IsBoundary (text : List Char) (index : Nat) : Prop :=
  ∃ before behind, text = before ++ behind ∧ byteSize before = index

/-- Between two boundaries lies a part of the text. -/
theorem IsBoundary.exists_part {text : List Char} {start stop : Nat}
    (first : IsBoundary text start) (second : IsBoundary text stop)
    (ordered : start ≤ stop) : ∃ before part behind, text = before ++ part ++ behind ∧
      byteSize before = start ∧ start + byteSize part = stop := by
  obtain ⟨before, rest, rfl, rfl⟩ := first
  obtain ⟨front, behind, same, rfl⟩ := second
  rcases List.append_eq_append_iff.mp same with ⟨part, rfl, rfl⟩ | ⟨part, rfl, rfl⟩
  · exact ⟨before, part, behind, by simp, rfl, (byteSize_append before part).symm⟩
  · -- the second boundary does not lie in front of the first one
    have empty : part = [] := by
      by_contra present
      have := byteSize_pos present
      rw [byteSize_append] at ordered
      omega
    subst empty
    exact ⟨front, [], rest, by simp, by simp, by simp⟩

theorem length_le_byteSize (text : List Char) : text.length ≤ byteSize text := by
  induction text with
  | nil => exact Nat.le_refl 0
  | cons character rest ih =>
    have := character.utf8Size_pos
    rw [List.length_cons, byteSize_cons]
    omega

/-- What stands in front of the first line feed. -/
def firstLine (text : List Char) : List Char := text.takeWhile (· ≠ '\n')

/-- What stands behind the last line feed. -/
def lastLine (text : List Char) : List Char := text.rtakeWhile (· ≠ '\n')

/-- What stands in front of the last line, with its line feed. -/
def earlierLines (text : List Char) : List Char := text.rdropWhile (· ≠ '\n')

variable {text before part behind : List Char}

@[simp]
theorem earlierLines_append_lastLine (text : List Char) :
    earlierLines text ++ lastLine text = text :=
  List.rdropWhile_append_rtakeWhile

theorem firstLine_cons (character : Char) (rest : List Char) :
    firstLine (character :: rest) = if character = '\n' then [] else character :: firstLine rest := by
  by_cases isBreak : character = '\n'
  · simp [firstLine, isBreak]
  · simp [firstLine, isBreak]

theorem firstLine_of_notMem (noBreak : '\n' ∉ text) (behind : List Char) :
    firstLine (text ++ behind) = text ++ firstLine behind := by
  apply List.takeWhile_append_of_pos
  intro character member
  exact decide_eq_true (ne_of_mem_of_not_mem member noBreak)

theorem firstLine_eq_self (noBreak : '\n' ∉ text) : firstLine text = text := by
  simpa [firstLine] using firstLine_of_notMem noBreak []

theorem exists_firstLine_append (text : List Char) : ∃ rest, text = firstLine text ++ rest := by
  obtain ⟨rest, split⟩ : firstLine text <+: text := List.takeWhile_prefix _
  exact ⟨rest, split.symm⟩

theorem exists_cut_firstLine (cut : text = before ++ part ++ behind) :
    ∃ rest, text = before ++ firstLine part ++ rest := by
  obtain ⟨rest, split⟩ := exists_firstLine_append part
  refine ⟨rest ++ behind, ?_⟩
  rw [List.append_assoc, ← List.append_assoc (firstLine part), ← split, cut, List.append_assoc]

theorem firstLine_of_mem (isBreak : '\n' ∈ text) (behind : List Char) :
    firstLine (text ++ behind) = firstLine text := by
  induction text with
  | nil => cases isBreak
  | cons character rest ih =>
    rw [List.cons_append, firstLine_cons, firstLine_cons]
    by_cases own : character = '\n'
    · rw [if_pos own, if_pos own]
    · have later : '\n' ∈ rest := (List.mem_cons.mp isBreak).resolve_left fun same => own same.symm
      rw [if_neg own, if_neg own, ih later]

/-- The first line of a text starts with that of each beginning of the text. -/
theorem exists_firstLine_append_behind (part behind : List Char) :
    ∃ after, firstLine (part ++ behind) = firstLine part ++ after := by
  by_cases isBreak : '\n' ∈ part
  · exact ⟨[], by rw [firstLine_of_mem isBreak, List.append_nil]⟩
  · exact ⟨firstLine behind, by rw [firstLine_of_notMem isBreak, firstLine_eq_self isBreak]⟩

/-- The first line of a part of a text ends with the part or with the line of the text. -/
theorem min_byteSize_firstLine (part behind : List Char) :
    min (byteSize part) (byteSize (firstLine (part ++ behind))) = byteSize (firstLine part) := by
  by_cases isBreak : '\n' ∈ part
  · obtain ⟨rest, split⟩ := exists_firstLine_append part
    have size := congrArg byteSize split
    rw [byteSize_append] at size
    rw [firstLine_of_mem isBreak]
    omega
  · rw [firstLine_of_notMem isBreak, firstLine_eq_self isBreak, byteSize_append]
    omega

theorem lastLine_of_notMem (noBreak : '\n' ∉ text) (before : List Char) :
    lastLine (before ++ text) = lastLine before ++ text := by
  have inside : ∀ character ∈ text.reverse, decide (character ≠ '\n') = true := by
    intro character member
    exact decide_eq_true (ne_of_mem_of_not_mem (List.mem_reverse.mp member) noBreak)
  rw [lastLine, List.rtakeWhile, List.reverse_append, List.takeWhile_append_of_pos inside,
    List.reverse_append, List.reverse_reverse]
  rfl

theorem notMem_lastLine (text : List Char) : '\n' ∉ lastLine text := by
  intro member
  have other := List.mem_rtakeWhile_imp member
  simp at other

theorem notMem_firstLine (text : List Char) : '\n' ∉ firstLine text := by
  intro member
  have other := List.mem_takeWhile_imp member
  simp at other

theorem lastLine_eq_self (noBreak : '\n' ∉ text) : lastLine text = text := by
  simpa [lastLine] using lastLine_of_notMem noBreak []

/-- If there is a line feed, one stands in front of the last line. -/
theorem exists_earlierLines (isBreak : '\n' ∈ text) :
    ∃ front line, text = front ++ '\n' :: line ∧ '\n' ∉ line ∧ lastLine text = line := by
  have present : earlierLines text ≠ [] := by
    intro empty
    have inside := List.rdropWhile_eq_nil_iff.mp empty '\n' isBreak
    simp at inside
  have last : (earlierLines text).getLast present = '\n' := by
    simpa [earlierLines] using List.rdropWhile_last_not _ text present
  have split : text = (earlierLines text).dropLast ++ '\n' :: lastLine text := calc
    text = earlierLines text ++ lastLine text := (earlierLines_append_lastLine text).symm
    _ = ((earlierLines text).dropLast ++ ['\n']) ++ lastLine text := by
      rw [← last, List.dropLast_append_getLast]
    _ = (earlierLines text).dropLast ++ '\n' :: lastLine text := by simp
  exact ⟨_, _, split, notMem_lastLine text, rfl⟩

theorem utf8Size_lineFeed : ('\n' : Char).utf8Size = 1 := rfl

/-- The first line starts with the text, and each further one behind a line feed. -/
theorem exists_lineStartsFrom (start : Nat) (text : List Char) :
    ∃ others, lineStartsFrom start text = start :: others ∧
      ∀ next ∈ others, ∃ before behind, text = before ++ '\n' :: behind ∧
        next = start + byteSize before + 1 := by
  induction text generalizing start with
  | nil => exact ⟨[], rfl, nofun⟩
  | cons character rest ih =>
    rw [lineStartsFrom]
    split
    next breaks =>
      subst breaks
      obtain ⟨others, same, known⟩ := ih (start + 1)
      rw [same]
      have later : ∀ next ∈ others, ∃ before behind, '\n' :: rest = before ++ '\n' :: behind ∧
          next = start + byteSize before + 1 := by
        intro next member
        obtain ⟨before, behind, rfl, rfl⟩ := known next member
        exact ⟨'\n' :: before, behind, rfl, by rw [byteSize_cons, utf8Size_lineFeed]; omega⟩
      exact ⟨_, rfl, List.forall_mem_cons.mpr ⟨⟨[], rest, rfl, rfl⟩, later⟩⟩
    next =>
      obtain ⟨others, same, known⟩ := ih (start + character.utf8Size)
      rw [same]
      -- the first line goes on with this character, and the others start where they did
      refine ⟨others, rfl, ?_⟩
      intro next member
      obtain ⟨before, behind, rfl, rfl⟩ := known next member
      exact ⟨character :: before, behind, rfl, by rw [byteSize_cons]; omega⟩

theorem le_of_mem_lineStartsFrom {start : Nat} :
    ∀ next ∈ lineStartsFrom start text, next ≤ start + byteSize text := by
  obtain ⟨others, same, breaks⟩ := exists_lineStartsFrom start text
  rw [same]
  refine List.forall_mem_cons.mpr ⟨Nat.le_add_right _ _, ?_⟩
  intro next later
  obtain ⟨front, rest, rfl, rfl⟩ := breaks next later
  simp only [byteSize_append, byteSize_cons, utf8Size_lineFeed]
  omega

theorem lt_of_mem_tail_lineStartsFrom {start : Nat} :
    ∀ next ∈ (lineStartsFrom start text).tail, start < next := by
  obtain ⟨others, same, breaks⟩ := exists_lineStartsFrom start text
  rw [same]
  intro next later
  obtain ⟨front, rest, -, rfl⟩ := breaks next later
  omega

/-- Behind a character the lines start where they would without it, the first one apart. -/
theorem lineStartsFrom_cons (start : Nat) (character : Char) (rest : List Char) :
    lineStartsFrom start (character :: rest) =
      start :: if character = '\n' then lineStartsFrom (start + 1) rest
        else (lineStartsFrom (start + character.utf8Size) rest).tail := by
  rw [lineStartsFrom]
  split
  · rfl
  · obtain ⟨others, same, -⟩ := exists_lineStartsFrom (start + character.utf8Size) rest
    rw [same]
    rfl

/-- The lines of a text in two pieces: the first line of the second piece is the last of the first. -/
theorem lineStartsFrom_append (start : Nat) (before behind : List Char) :
    lineStartsFrom start (before ++ behind) =
      lineStartsFrom start before ++ (lineStartsFrom (start + byteSize before) behind).tail := by
  induction before generalizing start with
  | nil =>
    obtain ⟨others, same, -⟩ := exists_lineStartsFrom start behind
    simp [same, lineStartsFrom]
  | cons character rest ih =>
    rw [List.cons_append, lineStartsFrom_cons, lineStartsFrom_cons, ih, ih, byteSize_cons]
    by_cases isBreak : character = '\n'
    · rw [if_pos isBreak, if_pos isBreak, isBreak, utf8Size_lineFeed, Nat.add_assoc]
      rfl
    · obtain ⟨others, same, -⟩ := exists_lineStartsFrom (start + character.utf8Size) rest
      rw [if_neg isBreak, if_neg isBreak, same, Nat.add_assoc]
      rfl

/-- There is one line more than there are line feeds. -/
theorem length_lineStartsFrom (start : Nat) (text : List Char) :
    (lineStartsFrom start text).length = text.count '\n' + 1 := by
  induction text generalizing start with
  | nil => rfl
  | cons character rest ih =>
    rw [lineStartsFrom_cons]
    by_cases isBreak : character = '\n'
    · simp [isBreak, ih]
    · simp [isBreak, ih]

/-- The last line starts behind all earlier ones. -/
theorem getLast?_lineStartsFrom (start : Nat) (text : List Char) :
    (lineStartsFrom start text).getLast? = some (start + byteSize (earlierLines text)) := by
  induction text using List.reverseRecOn with
  | nil => rfl
  | append_singleton text character ih =>
    rw [lineStartsFrom_append, lineStartsFrom_cons]
    by_cases isBreak : character = '\n'
    · subst isBreak
      have all : earlierLines (text ++ ['\n']) = text ++ ['\n'] :=
        List.rdropWhile_concat_neg _ _ _ (by simp)
      simp [all, utf8Size_lineFeed, lineStartsFrom, Nat.add_assoc]
    · have same : earlierLines (text ++ [character]) = earlierLines text :=
        List.rdropWhile_concat_pos _ _ _ (by simp [isBreak])
      simp [isBreak, same, ih, lineStartsFrom]

/-- The second line starts behind the first line feed. -/
theorem head?_tail_lineStartsFrom (start : Nat) (text : List Char) :
    (lineStartsFrom start text).tail.head? =
      if '\n' ∈ text then some (start + byteSize (firstLine text) + 1) else none := by
  induction text generalizing start with
  | nil => rfl
  | cons character rest ih =>
    rw [lineStartsFrom_cons, List.tail_cons]
    by_cases isBreak : character = '\n'
    · obtain ⟨others, same, -⟩ := exists_lineStartsFrom (start + 1) rest
      simp [isBreak, same, firstLine_cons]
    · have other : ¬ '\n' = character := fun same => isBreak same.symm
      simp [isBreak, other, ih, firstLine_cons, Nat.add_assoc]

/-- Where the next character behind a text stands. -/
def locationBehind (text : List Char) : Location :=
  ⟨text.count '\n' + 1, (lastLine text).length + 1⟩

namespace File

variable {file : File}

/-- The lines of a file up to a place, and those behind it. -/
theorem lineStarts_eq (cut : file.content = before ++ behind) :
    file.lineStarts = lineStartsFrom 0 before ++ (lineStartsFrom (byteSize before) behind).tail := by
  rw [lineStarts, cut, lineStartsFrom_append, Nat.zero_add]

/-- The number of the line of a place is the number of line feeds in front of it. -/
theorem lineIndex_eq (cut : file.content = before ++ behind) :
    file.lineIndex (byteSize before) = before.count '\n' := by
  have taken : file.lineStarts.takeWhile (· ≤ byteSize before) = lineStartsFrom 0 before := by
    rw [lineStarts_eq cut]
    apply takeWhile_append_stop
    · -- the lines up to the place start in front of it
      intro start member
      have upTo := le_of_mem_lineStartsFrom start member
      rw [Nat.zero_add] at upTo
      exact decide_eq_true upTo
    · -- and the next one behind it
      intro start isNext
      have above := lt_of_mem_tail_lineStartsFrom start (List.mem_of_mem_head? isNext)
      exact decide_eq_false (Nat.not_le.mpr above)
  -- the first line has the number zero
  rw [lineIndex, taken, length_lineStartsFrom, Nat.add_sub_cancel]

theorem getElem?_lineStarts (cut : file.content = before ++ behind) :
    file.lineStarts[before.count '\n']? = some (byteSize (earlierLines before)) := by
  have last := getLast?_lineStartsFrom 0 before
  rw [List.getLast?_eq_getElem?, length_lineStartsFrom, Nat.add_sub_cancel, Nat.zero_add] at last
  rw [lineStarts_eq cut, List.getElem?_append_left, last]
  rw [length_lineStartsFrom]
  exact Nat.lt_succ_self _

theorem getElem?_succ_lineStarts (cut : file.content = before ++ behind) :
    file.lineStarts[before.count '\n' + 1]? =
      if '\n' ∈ behind then some (byteSize before + byteSize (firstLine behind) + 1) else none := by
  have front := length_lineStartsFrom 0 before
  rw [lineStarts_eq cut, List.getElem?_append_right (Nat.le_of_eq front), front, Nat.sub_self,
    ← List.head?_eq_getElem?, head?_tail_lineStartsFrom]

/-- The line of a place starts behind the earlier lines and ends with the line that it cuts. -/
theorem lineSpan?_eq (cut : file.content = before ++ behind) :
    file.lineSpan? (file.lineIndex (byteSize before)) =
      some ⟨byteSize (earlierLines before), byteSize before + byteSize (firstLine behind)⟩ := by
  rw [lineIndex_eq cut, lineSpan?, getElem?_lineStarts cut, getElem?_succ_lineStarts cut]
  by_cases isBreak : '\n' ∈ behind
  · simp [isBreak]
  · -- the last line ends with the file
    simp [isBreak, firstLine_eq_self isBreak, cut]

/-- The part of the content behind a text and in front of another one. -/
theorem slice?_eq (cut : file.content = before ++ part ++ behind) :
    file.slice? ⟨byteSize before, byteSize before + byteSize part⟩ = some part :=
  slice?_eq_some_iff.mpr ⟨before, behind, cut, rfl, rfl⟩

theorem slice?_lastLine (cut : file.content = before ++ behind) :
    file.slice? ⟨byteSize (earlierLines before), byteSize before⟩ = some (lastLine before) := by
  have lines : file.content = earlierLines before ++ lastLine before ++ behind := by
    rw [earlierLines_append_lastLine, cut]
  have inLine := slice?_eq lines
  rwa [← byteSize_append, earlierLines_append_lastLine] at inLine

theorem location?_eq (cut : file.content = before ++ behind) :
    file.location? (byteSize before) = some (locationBehind before) := by
  rw [location?, lineIndex_eq cut, getElem?_lineStarts cut]
  simp [slice?_lastLine cut, locationBehind]

/-- The line of a place is cut there into the two parts that its neighbours leave of it. -/
theorem slice?_line (cut : file.content = before ++ behind) :
    file.slice? ⟨byteSize (earlierLines before), byteSize before + byteSize (firstLine behind)⟩ =
      some (lastLine before ++ firstLine behind) := by
  obtain ⟨rest, split⟩ := exists_firstLine_append behind
  apply slice?_eq_some_iff.mpr
  refine ⟨earlierLines before, rest, ?_, rfl, ?_⟩
  · rw [← List.append_assoc, earlierLines_append_lastLine, List.append_assoc, ← split, cut]
  · have size := congrArg byteSize (earlierLines_append_lastLine before)
    rw [byteSize_append] at size
    rw [byteSize_append]
    dsimp only
    omega

theorem slice?_firstLine (cut : file.content = before ++ part ++ behind) :
    file.slice? ⟨byteSize before, byteSize before + byteSize (firstLine part)⟩ =
      some (firstLine part) := by
  obtain ⟨rest, lines⟩ := exists_cut_firstLine cut
  exact slice?_eq lines

variable {span : Span}

/-- The index in a source map lies between two characters of the file or at one of its ends. -/
def HasBoundary (file : File) (index : Nat) : Prop :=
  file.start ≤ index ∧ IsBoundary file.content (index - file.start)

/-- The span lies over a part of the file, which may be empty. -/
def Holds (file : File) (span : Span) : Prop := ∃ part, LiesUnder file.start file.content span part

/-- A span within a file goes from one boundary to another one. -/
theorem holds_iff : file.Holds span ↔
    file.HasBoundary span.start ∧ file.HasBoundary span.stop ∧ span.IsOrdered := by
  constructor
  · rintro ⟨part, before, behind, cut, rfl⟩
    have first : file.HasBoundary (file.start + byteSize before) :=
      ⟨Nat.le_add_right _ _, before, part ++ behind, by simp [cut], by simp⟩
    have second : file.HasBoundary (file.start + byteSize (before ++ part)) :=
      ⟨Nat.le_add_right _ _, before ++ part, behind, cut, by simp⟩
    exact ⟨first, second, by simp [Span.IsOrdered]⟩
  · rintro ⟨⟨behind, first⟩, ⟨_, second⟩, ordered⟩
    have inside : span.start ≤ span.stop := ordered
    obtain ⟨before, part, after, cut, size, sizes⟩ :=
      first.exists_part second (Nat.sub_le_sub_right inside _)
    refine ⟨part, before, after, cut, ?_⟩
    obtain ⟨left, right⟩ := span
    simp only [byteSize_append, Span.mk.injEq] at *
    omega

/-- The end of a file is a place in it. -/
theorem holds_end (file : File) : file.Holds (.emptyAt file.span.stop) :=
  ⟨[], file.content, [], by simp, by simp [Span.emptyAt, File.span]⟩

theorem Holds.stop_le (holds : file.Holds span) : span.stop ≤ file.span.stop := by
  obtain ⟨part, lies⟩ := holds
  exact lies.bounds.2.2

end File

namespace Map

variable {map : Map} {file : File}

/-- A part of a file is located in the file that is found for it. -/
theorem locate?_eq (found : map.file? ⟨file.start + byteSize before,
    file.start + byteSize (before ++ part)⟩ = some file) :
    map.locate? ⟨file.start + byteSize before, file.start + byteSize (before ++ part)⟩ =
      some (file, ⟨byteSize before, byteSize before + byteSize part⟩) := by
  have inner : file.toLocal? ⟨file.start + byteSize before, file.start + byteSize (before ++ part)⟩ =
      some ⟨byteSize before, byteSize before + byteSize part⟩ := by
    simp [File.toLocal?, Span.IsOrdered, Span.unshift]
  rw [locate?, found]
  simp only [Option.bind_eq_bind, Option.bind_some, inner]
  rfl

/-- The first line of a part of a file is cut in front of the part and where the part or the line
ends. -/
theorem markedLine?_eq (found : map.file? ⟨file.start + byteSize before,
      file.start + byteSize (before ++ part)⟩ = some file)
    (cut : file.content = before ++ part ++ behind) :
    map.markedLine? ⟨file.start + byteSize before, file.start + byteSize (before ++ part)⟩ =
      some {
        file := file.name
        location := locationBehind before
        content := lastLine before ++ firstLine (part ++ behind)
        before := lastLine before
        marked := firstLine part } := by
  have place : file.content = before ++ (part ++ behind) := by rw [cut, List.append_assoc]
  rw [markedLine?, locate?_eq found]
  simp [File.lineSpan?_eq place, File.slice?_line place, File.slice?_lastLine place,
    File.slice?_firstLine cut, File.location?_eq place, Nat.add_min_add_left, min_byteSize_firstLine]

/-- What lies in the file that it is looked for in has a first line to be shown. -/
theorem isSome_markedLine? {span : Span} (found : map.file? span = some file)
    (holds : file.Holds span) : (map.markedLine? span).isSome = true := by
  obtain ⟨part, before, behind, cut, rfl⟩ := holds
  rw [markedLine?_eq found cut]
  rfl

end Map

end Source

end Cadence
