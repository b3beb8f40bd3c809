import Cadence.Diagnostic.Terminal
import Cadence.Proofs.Diagnostic.Collection
import Cadence.Proofs.Diagnostic.Rendering
import Cadence.Proofs.Source.Additions
import Cadence.Token.Scan

/-!
# What a flushed terminal has shown

A terminal inserts the warnings and the errors that are reported to it where they belong, so a flush
shows each of them once, and as highlights are compared first, in source order. The code that the
summary of the errors recommends is the least one. Errors are not ordered by their codes, and so it
need not be the code of the first of them.
-/
namespace Cadence

open Source (FileName Map)

/-! ## Ascending lists -/

namespace Sorted

variable {α : Type} [Ord α] [Std.LawfulEqOrd α] {items : List α}

theorem mem_ofList {item : α} : item ∈ ofList items ↔ item ∈ items := by
  rw [ofList, ← insertAll, mem_insertAll]
  simp

theorem isAscending_ofList [Std.TransOrd α] : IsAscending (ofList items) :=
  isAscending_insertAll List.Pairwise.nil

/-- One item is left of many exactly if all of them are the same. -/
theorem length_ofList_eq_one_iff [Std.TransOrd α] {first : α} :
    (ofList (first :: items)).length = 1 ↔ ∀ other ∈ items, other = first := by
  constructor
  · intro one other member
    obtain ⟨only, same⟩ := List.length_eq_one_iff.mp one
    have isOnly : ∀ item ∈ first :: items, item = only := fun item isItem => by
      rw [← mem_ofList, same] at isItem
      exact List.mem_singleton.mp isItem
    rw [isOnly first List.mem_cons_self, isOnly other (List.mem_cons_of_mem _ member)]
  · intro all
    have single : ofList (first :: items) = [first] := by
      refine isAscending_ofList.eq_of_mem_iff (List.pairwise_singleton _ _) fun item => ?_
      rw [mem_ofList, List.mem_cons, List.mem_singleton]
      exact or_iff_left_of_imp (all item)
    rw [single, List.length_singleton]

end Sorted

theorem IsAscending.nodup {α : Type} [Ord α] [Std.LawfulEqOrd α] {items : List α}
    (ascending : IsAscending items) : items.Nodup := by
  refine List.Pairwise.imp ?_ ascending
  rintro first _ less rfl
  simp [Std.ReflCmp.compare_self] at less

theorem Source.Span.isLE_compare {left right : Span} : (left.compare right).isLE = true ↔
    left.start < right.start ∨ left.start = right.start ∧ left.stop ≤ right.stop := by
  rw [Span.compare, Ordering.isLE_then_iff_or, Nat.compare_eq_lt, Nat.compare_eq_eq, Nat.isLE_compare]

/-- What is not behind another list is empty or starts with nothing behind the start of that one. -/
theorem exists_head_of_compareLists {α : Type} [Ord α] {lefts rights : List α}
    (ordered : (compareLists lefts rights).isLE = true) :
    ∀ left ∈ lefts.head?, ∃ right ∈ rights.head?, (compare left right).isLE = true := by
  cases lefts with
  | nil => simp
  | cons left lefts =>
    cases rights with
    | nil => cases ordered
    | cons right rights => simpa using Ordering.isLE_left_of_isLE_then ordered

namespace Diagnostic

/-- In the source code the first diagnostic comes in front of the second one or at the same place: one
without a place, or with a first place that starts in front of that of the other, or that starts there
as well and does not end behind it. -/
def IsNotBehind (first second : Diagnostic) : Prop :=
  ∀ place ∈ first.highlights.head?, ∃ other ∈ second.highlights.head?,
    place.span.start < other.span.start ∨
      place.span.start = other.span.start ∧ place.span.stop ≤ other.span.stop

theorem isNotBehind_of_lt {first second : Diagnostic} (less : compare first second = .lt) :
    first.IsNotBehind second := by
  have ordered : (compare first second).isLE = true := by rw [less, Ordering.isLE_lt]
  have places : (compareLists first.highlights second.highlights).isLE = true :=
    Ordering.isLE_left_of_isLE_then ordered
  intro place isPlace
  obtain ⟨other, isOther, spans⟩ := exists_head_of_compareLists places place isPlace
  exact ⟨other, isOther, Source.Span.isLE_compare.mp (Ordering.isLE_left_of_isLE_then spans)⟩

end Diagnostic

/-! ## Reports -/

/-- Of some reports those whose severity is asked for, each once, in source order. -/
structure IsGroup (test : Severity → Bool) (reports group : List Diagnostic) : Prop where
  mem_iff : ∀ diagnostic, diagnostic ∈ group ↔ diagnostic ∈ reports ∧ test diagnostic.severity = true
  nodup : group.Nodup
  ordered : group.Pairwise Diagnostic.IsNotBehind

theorem isGroup_insertAll (test : Severity → Bool) (reports : List Diagnostic) :
    IsGroup test reports (Sorted.insertAll [] (reports.filter (test ·.severity))) := by
  have ascending : IsAscending (Sorted.insertAll [] (reports.filter (test ·.severity))) :=
    Sorted.isAscending_insertAll List.Pairwise.nil
  refine ⟨fun diagnostic => ?_, ascending.nodup, ascending.imp Diagnostic.isNotBehind_of_lt⟩
  simp [Sorted.mem_insertAll]

namespace Terminal

/-- Report some diagnostics one after the other. -/
def reportAll (terminal : Terminal) (reports : List Diagnostic) : Terminal := reports.foldl report terminal

/-- The warnings and the errors are inserted, and what tells the progress is shown at once, if at all. -/
theorem reportAll_eq (terminal : Terminal) (reports : List Diagnostic) :
    terminal.reportAll reports = { terminal with
      warnings := Sorted.insertAll terminal.warnings (reports.filter (·.severity = .warning))
      errors := Sorted.insertAll terminal.errors (reports.filter (·.severity.isError))
      shown := terminal.shown ++
        (reports.filter (·.severity = .info && terminal.verbose)).map .diagnostic } := by
  induction reports generalizing terminal with
  | nil => simp [reportAll, Sorted.insertAll]
  | cons first rest ih =>
    rw [reportAll, List.foldl_cons, ← reportAll, ih, report]
    cases same : first.severity with
    | bug | error | warning => simp [same, Severity.isError, Sorted.insertAll]
    | info => cases verbose : terminal.verbose <;> simp [same, verbose, Severity.isError]

/-- Nothing is left to be shown. -/
theorem flush_flush (terminal : Terminal) : terminal.flush.flush = terminal.flush := by
  simp [flush, showGroup]

end Terminal

/-! ## The summary of the errors -/

/-- The note that recommends to look up a code. -/
def recommendation (code : ErrorCode) (which : String) : Note :=
  ⟨.help, "run ‘cadence explain " ++ code.name ++ "’ to learn more about " ++ which ++ " error"⟩

/-- The least code is recommended, whichever comes first. -/
theorem notes_errorSummary {errors : List Diagnostic} {first : ErrorCode} {others : List ErrorCode}
    (codes : errors.filterMap Diagnostic.code = first :: others) :
    ∃ least ∈ first :: others,
      (errorSummary errors).notes =
        [recommendation least (if ∀ other ∈ others, other = first then "this" else "the first")] ∧
      ∀ other ∈ first :: others, least.number ≤ other.number := by
  have ascending : IsAscending (Sorted.ofList (first :: others)) := Sorted.isAscending_ofList
  have isCode (code : ErrorCode) : code ∈ Sorted.ofList (first :: others) ↔ code ∈ first :: others :=
    Sorted.mem_ofList
  -- the codes are collected in ascending order, so that the first one collected is the least
  cases sorted : Sorted.ofList (first :: others) with
  | nil => simpa [sorted] using (isCode first).mpr List.mem_cons_self
  | cons least greater =>
    rw [sorted] at ascending isCode
    obtain ⟨below, -⟩ := List.pairwise_cons.mp ascending
    refine ⟨least, (isCode least).mp List.mem_cons_self, ?notes, ?least⟩
    case notes =>
      have one : (least :: greater).length = 1 ↔ ∀ other ∈ others, other = first := by
        rw [← sorted, Sorted.length_ofList_eq_one_iff]
      rw [errorSummary, codes]
      simp only [sorted, Text.inflected, one]
      rfl
    case least =>
      intro other member
      rcases List.mem_cons.mp ((isCode other).mpr member) with rfl | later
      · exact Nat.le_refl _
      · exact Nat.le_of_lt (Nat.compare_eq_lt.mp (below other later))

/-! ## The text of what is shown -/

section Text

variable {map : Map} (spaced : map.IsSpaced) (colored : Bool) {diagnostics : List Diagnostic}
  (places : ∀ diagnostic ∈ diagnostics, diagnostic.AllPlaces map.Holds)
include spaced places

theorem isSome_render?_map_diagnostic :
    ∀ piece ∈ diagnostics.map Shown.diagnostic, (piece.render? (some map) colored).isSome = true := by
  intro piece member
  obtain ⟨diagnostic, isShown, rfl⟩ := List.mem_map.mp member
  rw [Shown.render?, Option.isSome_map]
  exact Diagnostic.isSome_render? spaced (places diagnostic isShown) colored

/-- A summary has no places of its own. -/
theorem isSome_render?_showGroup {summary : List Diagnostic → Diagnostic}
    (bare : (summary diagnostics).highlights = []) :
    ∀ piece ∈ showGroup summary diagnostics, (piece.render? (some map) colored).isSome = true := by
  rw [showGroup]
  split
  · exact List.forall_mem_nil _
  · refine isSome_render?_map_diagnostic spaced colored (List.forall_mem_append.mpr ⟨places, ?_⟩)
    exact List.forall_mem_singleton.mpr (Diagnostic.allPlaces_of_nil bare)

end Text

theorem highlights_errorSummary (errors : List Diagnostic) : (errorSummary errors).highlights = [] := by
  rw [errorSummary]
  split <;> rfl

/-- A terminal that has shown something and holds nothing back shows progress at once, if at all, and
when it is flushed each warning and then each error that was reported, once and in source order, with
a summary behind each group that is not empty. A second flush shows nothing. If errors have codes, the
summary recommends the least of these, which is the code of the first error shown with a code exactly
if no other error has a lesser one. -/
theorem reports_are_flushed_in_order (verbose : Bool) (shown : List Shown) (reports : List Diagnostic) :
    let flushed := (Terminal.reportAll { verbose, shown } reports).flush
    ∃ infos warnings errors,
      flushed.shown = shown ++ infos.map .diagnostic ++ showGroup warningSummary warnings ++
        showGroup errorSummary errors ∧
      infos = reports.filter (fun report => report.severity = .info && verbose) ∧
      IsGroup (· = .warning) reports warnings ∧
      IsGroup Severity.isError reports errors ∧
      flushed.flush = flushed ∧
      (∀ texts colored,
        (∀ piece ∈ shown, (piece.render? (some (Map.ofTexts texts)) colored).isSome = true) →
        (∀ report ∈ reports, report.AllPlaces (Map.ofTexts texts).Holds) →
          (flushed.render? (some (Map.ofTexts texts)) colored).isSome = true) ∧
      match errors.filterMap Diagnostic.code with
      | [] => (errorSummary errors).notes = []
      | first :: others => ∃ least ∈ first :: others,
          (errorSummary errors).notes =
            [recommendation least (if ∀ other ∈ others, other = first then "this" else "the first")] ∧
          (∀ other ∈ first :: others, least.number ≤ other.number) ∧
          (least = first ↔ ∀ other ∈ others, first.number ≤ other.number) := by
  intro flushed
  let infos := reports.filter fun report => report.severity = .info && verbose
  let warnings := Sorted.insertAll [] (reports.filter (·.severity = .warning))
  let errors := Sorted.insertAll [] (reports.filter (·.severity.isError))
  have areWarnings : IsGroup (· = .warning) reports warnings := isGroup_insertAll _ reports
  have areErrors : IsGroup Severity.isError reports errors := isGroup_insertAll _ reports
  have isShown : flushed.shown = shown ++ infos.map .diagnostic ++
      showGroup warningSummary warnings ++ showGroup errorSummary errors := by
    simp only [flushed, Terminal.reportAll_eq, Terminal.flush, infos, warnings, errors]
  refine ⟨infos, warnings, errors, isShown, rfl, areWarnings, areErrors, Terminal.flush_flush _, ?text,
    ?summary⟩
  case text =>
    intro texts colored before places
    have spaced := (Source.Map.isLaidOut_ofTexts texts).spaced
    have areInfos : ∀ info ∈ infos, info.AllPlaces (Map.ofTexts texts).Holds :=
      fun info member => places info (List.mem_of_mem_filter member)
    have inWarnings : ∀ warning ∈ warnings, warning.AllPlaces (Map.ofTexts texts).Holds :=
      fun warning member => places warning ((areWarnings.mem_iff warning).mp member).1
    have inErrors : ∀ error ∈ errors, error.AllPlaces (Map.ofTexts texts).Holds :=
      fun error member => places error ((areErrors.mem_iff error).mp member).1
    -- the pieces are reports, whose places are known, and summaries, which have none
    have bare := highlights_errorSummary errors
    rw [Terminal.render?, Option.isSome_map, isShown]
    refine isSome_mapM (List.forall_mem_append.mpr ⟨List.forall_mem_append.mpr
      ⟨List.forall_mem_append.mpr ⟨before, ?_⟩, ?_⟩, ?_⟩)
    · exact isSome_render?_map_diagnostic spaced colored areInfos
    · exact isSome_render?_showGroup spaced colored inWarnings rfl
    · exact isSome_render?_showGroup spaced colored inErrors bare
  case summary =>
    split
    next none =>
      rw [errorSummary, none]
      rfl
    next first others codes =>
      obtain ⟨least, member, notes, minimal⟩ := notes_errorSummary codes
      refine ⟨least, member, notes, minimal, ?_, fun isLeast => ?_⟩
      · rintro rfl other later
        exact minimal other (List.mem_cons_of_mem _ later)
      · rcases List.mem_cons.mp member with rfl | later
        · rfl
        · exact ErrorCode.eq_of_number_eq
            (Nat.le_antisymm (minimal first List.mem_cons_self) (isLeast least later))

/-- A digit that is not valid in front of a character that starts no token: the code of the character is
the lesser one and recommended to learn more about the first error. -/
theorem second_error_is_called_first :
    let reports := (Lexed.ofText 1 "0b2 $".toList).diagnostics
    let errors := (Terminal.reportAll {} reports).errors
    (Terminal.reportAll {} reports).flush.shown =
        errors.map .diagnostic ++ [.diagnostic (errorSummary errors)] ∧
      errors.map Diagnostic.code = [some .e002, some .e001] ∧
      (errorSummary errors).notes = [recommendation .e001 "the first"] := by
  decide +kernel

/-- A warning that is reported twice, before and behind two errors. -/
theorem repeated_warning_is_shown_once :
    let texts := [(FileName.anonymous, "0b2 $".toList)]
    let unused := (Diagnostic.warning "unused").pointAt ⟨1, 4⟩ "here"
    let reports := [unused] ++ (Lexed.ofText 1 "0b2 $".toList).diagnostics ++ [unused]
    let flushed := (Terminal.reportAll {} reports).flush
    (∀ report ∈ reports, report.AllPlaces (Map.ofTexts texts).Holds) ∧
      (∃ errors, IsGroup Severity.isError reports errors ∧
        flushed.shown = showGroup warningSummary [unused] ++ showGroup errorSummary errors) ∧
      (flushed.render? (some (Map.ofTexts texts)) true).isSome = true := by
  intro texts unused reports flushed
  let file : Source.File := ⟨.anonymous, "0b2 $".toList, 1⟩
  have isFile : file ∈ (Map.ofTexts texts).files := by decide +kernel
  have holds : ∀ span ∈ [⟨1, 4⟩, ⟨3, 4⟩, ⟨5, 6⟩], (Map.ofTexts texts).Holds span := by
    simp only [List.forall_mem_cons, List.not_mem_nil, false_implies, implies_true, and_true]
    exact ⟨⟨file, isFile, "0b2".toList, [], [' ', '$'], by decide, by decide⟩,
      ⟨file, isFile, ['2'], "0b".toList, [' ', '$'], by decide, by decide⟩,
      file, isFile, ['$'], "0b2 ".toList, [], by decide, by decide⟩
  have spans : ∀ report ∈ reports, ∀ highlight ∈ report.highlights,
      highlight.span ∈ [⟨1, 4⟩, ⟨3, 4⟩, ⟨5, 6⟩] := by
    decide +kernel
  have places : ∀ report ∈ reports, report.AllPlaces (Map.ofTexts texts).Holds :=
    fun report isReport highlight member => holds _ (spans report isReport highlight member)
  obtain ⟨infos, warnings, errors, isShown, isInfos, areWarnings, areErrors, _, text, _⟩ :=
    reports_are_flushed_in_order false [] reports
  have quiet : infos = [] := by simp [isInfos]
  have same : ∀ report ∈ reports, report.severity = .warning → report = unused := by decide +kernel
  have once : warnings = [unused] := by
    refine List.perm_singleton.mp ((List.perm_ext_iff_of_nodup areWarnings.nodup
      (List.nodup_singleton unused)).mpr fun warning => ?_)
    rw [areWarnings.mem_iff, List.mem_singleton, decide_eq_true_iff]
    constructor
    · rintro ⟨member, isWarning⟩
      exact same warning member isWarning
    · rintro rfl
      exact ⟨List.mem_cons_self, rfl⟩
  refine ⟨places, ⟨errors, areErrors, ?_⟩, text texts true (List.forall_mem_nil _) places⟩
  rw [isShown, quiet, once]
  rfl

end Cadence
