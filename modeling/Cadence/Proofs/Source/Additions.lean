import Cadence.Proofs.Source.Map
import Mathlib.Data.List.Chain

/-!
# Maps made by adding texts

Whatever texts are added to an empty map, the files fill the index space from one on with one byte
between them. So a span of a file is looked up in this file, also at its end and if it is empty, and
what is said about the span there is said about the same part of the content.
-/
namespace Cadence.Source

namespace Map

/-- The map that texts are added to one after the other. -/
def ofTexts (texts : List (FileName × List Char)) : Map :=
  texts.foldl (fun map text => map.add text.1 text.2) empty

variable {map : Map} {texts : List (FileName × List Char)} {file : File} {span : Span}

theorem ofTexts_concat (texts : List (FileName × List Char)) (name : FileName) (text : List Char) :
    ofTexts (texts ++ [(name, text)]) = (ofTexts texts).add name text := by
  simp [ofTexts]

/-- The files are those that were added, each of them next to the one before. -/
structure IsLaidOut (map : Map) (texts : List (FileName × List Char)) : Prop where
  files_eq : map.files.map (fun file => (file.name, file.content)) =
    texts.map fun text => (text.1, withoutReturns text.2)
  first : ∀ file ∈ map.files.head?, file.span.start = 1
  next : map.files.IsChain fun left right => right.span.start = left.span.stop + 1
  spaced : map.IsSpaced

theorem isLaidOut_empty : empty.IsLaidOut [] :=
  ⟨rfl, nofun, .nil, isSpaced_empty⟩

theorem IsLaidOut.add (laidOut : map.IsLaidOut texts) (name : FileName) (text : List Char) :
    (map.add name text).IsLaidOut (texts ++ [(name, text)]) := by
  obtain ⟨files_eq, first, next, spaced⟩ := laidOut
  constructor
  case files_eq =>
    rw [Map.add, List.map_append, files_eq, List.map_append]
    rfl
  case first =>
    intro file isFirst
    cases files : map.files with
    | nil =>
      -- the added file is the first one
      obtain rfl : map.place name text = file := by simpa [Map.add, files] using isFirst
      simp [place, File.span, nextStart, files, padding]
    | cons front others =>
      apply first file
      simpa [Map.add, files] using isFirst
  case next =>
    apply List.isChain_append.mpr
    refine ⟨next, .singleton _, ?_⟩
    intro last isLast new isNew
    obtain rfl : map.place name text = new := by simpa using isNew
    simp [place, File.span, nextStart, Option.mem_def.mp isLast, padding]
  case spaced => exact spaced.add name text

theorem isLaidOut_ofTexts (texts : List (FileName × List Char)) :
    (ofTexts texts).IsLaidOut texts := by
  induction texts using List.reverseRecOn with
  | nil => exact isLaidOut_empty
  | append_singleton texts text ih =>
    rw [ofTexts_concat]
    exact ih.add text.1 text.2

/-- Whatever is asked about a span is answered from the file. -/
structure Answers (map : Map) (file : File) (span : Span) : Prop where
  file?_eq : map.file? span = some file
  /-- The files that end in front of the span are those in front of the file. -/
  parted : ∃ before after, map.files = before ++ file :: after ∧
    (∀ other ∈ before, other.span.stop < span.start) ∧
    ∀ other ∈ file :: after, span.start ≤ other.span.stop
  /-- The span counted from the start of the file is counted back to the same span. -/
  locate?_eq : ∃ inner, map.locate? span = some (file, inner) ∧ file.toLocal? span = some inner ∧
    inner.checked? = some inner ∧ file.toGlobal inner = span
  snippet?_eq_iff : ∀ part, map.snippet? span = some part ↔
    LiesUnder file.start file.content span part
  isSome_snippet?_iff : (map.snippet? span).isSome = true ↔
    file.HasBoundary span.start ∧ file.HasBoundary span.stop

/-- The text under a span of a file is a part of the content. -/
theorem snippet?_eq_some_iff {part : List Char} (found : map.file? span = some file)
    (behind : file.span.start ≤ span.start) (ordered : span.IsOrdered) :
    map.snippet? span = some part ↔ LiesUnder file.start file.content span part := by
  have inner : file.toLocal? span = some (span.unshift file.start) := if_pos ⟨behind, ordered⟩
  have direct : map.snippet? span = Source.slice? file.content (span.start - file.start)
      (span.stop - file.start) := by
    simp [snippet?, locate?, found, inner, File.slice?, Span.unshift]
  have starts : file.start ≤ span.start := behind
  have forward : span.start ≤ span.stop := ordered
  rw [direct, slice?_eq_some_iff]
  obtain ⟨start, stop⟩ := span
  constructor
  · rintro ⟨before, after, cut, size, sizes⟩
    refine ⟨before, after, cut, ?_⟩
    simp only [byteSize_append, Span.mk.injEq] at *
    omega
  · rintro ⟨before, after, cut, same⟩
    refine ⟨before, after, cut, ?_⟩
    simp only [byteSize_append, Span.mk.injEq] at *
    omega

theorem isSome_snippet?_iff (found : map.file? span = some file)
    (behind : file.span.start ≤ span.start) (ordered : span.IsOrdered) :
    (map.snippet? span).isSome = true ↔
      file.HasBoundary span.start ∧ file.HasBoundary span.stop := by
  have whole : (map.snippet? span).isSome = true ↔ file.Holds span := by
    rw [Option.isSome_iff_exists]
    exact exists_congr fun part => snippet?_eq_some_iff found behind ordered
  rw [whole, File.holds_iff]
  exact ⟨fun ⟨first, second, _⟩ => ⟨first, second⟩, fun ⟨first, second⟩ => ⟨first, second, ordered⟩⟩

/-- A span that lies in a file is answered from it. -/
theorem IsSpaced.answers (spaced : map.IsSpaced) (member : file ∈ map.files)
    (behind : file.span.start ≤ span.start) (ordered : span.IsOrdered)
    (upTo : span.stop ≤ file.span.stop) (small : file.span.stop < Span.indexLimit) :
    map.Answers file span := by
  have forward : span.start ≤ span.stop := ordered
  have found := spaced.file?_eq member behind (Nat.le_trans forward upTo)
  have starts : file.start ≤ span.start := behind
  have inner : file.toLocal? span = some (span.unshift file.start) := if_pos ⟨behind, ordered⟩
  constructor
  case file?_eq => exact found
  case parted => exact spaced.parted member behind (Nat.le_trans forward upTo)
  case locate?_eq =>
    refine ⟨span.unshift file.start, by simp [locate?, found, inner], inner, ?_, ?_⟩
    · apply Span.checked?_eq_some_iff.mpr
      simp only [Span.IsOrdered, Span.unshift, true_and]
      omega
    · obtain ⟨start, stop⟩ := span
      simp only [File.toGlobal, Span.shift, Span.unshift, Span.mk.injEq] at *
      omega
  case snippet?_eq_iff => exact fun part => snippet?_eq_some_iff found behind ordered
  case isSome_snippet?_iff => exact isSome_snippet?_iff found behind ordered

/-- Texts that are added become files in this order, which start at one and then one byte behind the
file before. As long as there are fewer bytes and files than indices, every place of a file has an
index, and a span that lies in a file, its end included, is answered from this file. -/
theorem files_share_the_indices (texts : List (FileName × List Char))
    (small : byteSize ((ofTexts texts).files.flatMap File.content) + texts.length <
      Span.indexLimit) :
    let map := ofTexts texts
    map.files.map (fun file => (file.name, file.content)) =
        texts.map (fun text => (text.1, withoutReturns text.2)) ∧
      (∀ file ∈ map.files.head?, file.span.start = 1) ∧
      map.files.IsChain (fun left right => right.span.start = left.span.stop + 1) ∧
      map.files.Pairwise (fun left right => left.span.stop < right.span.start) ∧
      ∀ file ∈ map.files, file.span.checked? = some file.span ∧
        ∀ span : Span, file.span.start ≤ span.start → span.start ≤ span.stop →
          span.stop ≤ file.span.stop → map.Answers file span := by
  have laidOut := isLaidOut_ofTexts texts
  refine ⟨laidOut.files_eq, laidOut.first, laidOut.next, laidOut.spaced.apart, ?_⟩
  intro file member
  -- there are as many files as texts
  have number : (ofTexts texts).files.length = texts.length := by
    simpa using congrArg List.length laidOut.files_eq
  have inside := laidOut.spaced.stop_le member
  rw [number] at inside
  have within : file.span.stop < Span.indexLimit := Nat.lt_of_le_of_lt inside small
  constructor
  · exact Span.checked?_eq_some_iff.mpr ⟨rfl, Nat.le_add_right _ _, within⟩
  · intro span behind ordered upTo
    exact laidOut.spaced.answers member behind ordered upTo within

/-- An empty file between two others, the last of which has a letter of two bytes. -/
theorem three_files_share_the_indices :
    let texts := [(.anonymous, "a\r\nb".toList), (.anonymous, []), (.anonymous, "äb".toList)]
    byteSize ((ofTexts texts).files.flatMap File.content) + texts.length < Span.indexLimit ∧
      (⟨.anonymous, [], 5⟩ : File) ∈ (ofTexts texts).files ∧
      (ofTexts texts).Answers ⟨.anonymous, [], 5⟩ ⟨5, 5⟩ ∧
      (ofTexts texts).snippet? ⟨6, 8⟩ = some ['ä'] := by
  intro texts
  have small : byteSize ((ofTexts texts).files.flatMap File.content) + texts.length <
      Span.indexLimit := by decide +kernel
  obtain ⟨-, -, -, -, answers⟩ := files_share_the_indices texts small
  have empty : (⟨.anonymous, [], 5⟩ : File) ∈ (ofTexts texts).files := by decide +kernel
  have last : (⟨.anonymous, ['ä', 'b'], 6⟩ : File) ∈ (ofTexts texts).files := by decide +kernel
  refine ⟨small, empty, (answers _ empty).2 ⟨5, 5⟩ (by decide) (by decide) (by decide), ?_⟩
  have answered := (answers _ last).2 ⟨6, 8⟩ (by decide) (by decide) (by decide)
  exact (answered.snippet?_eq_iff ['ä']).mpr ⟨[], ['b'], rfl, by decide⟩

end Map

end Cadence.Source
