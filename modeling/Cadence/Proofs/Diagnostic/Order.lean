import Cadence.Diagnostic.Collector

/-!
# The order of diagnostics

Only equal diagnostics compare as equal, and the same holds of what they consist of. So a collector
leaves out a diagnostic only if it has the same one already, and keeps all of those that are
reported to it if no two of them are the same.
-/
namespace Cadence

open Source (Span)

theorem lawfulEqOrd_of_iff {α : Type} [Ord α]
    (exactly : ∀ left right : α, compare left right = .eq ↔ left = right) : Std.LawfulEqOrd α where
  compare_self := (exactly _ _).mpr rfl
  eq_of_compare := (exactly _ _).mp

section Parts

variable {α : Type} [Ord α] [Std.LawfulEqOrd α]

@[simp]
theorem compareOptions_eq_iff (left right : Option α) :
    compareOptions left right = .eq ↔ left = right := by
  cases left <;> cases right <;> simp [compareOptions]

@[simp]
theorem compareLists_eq_iff (left right : List α) :
    compareLists left right = .eq ↔ left = right := by
  induction left generalizing right with
  | nil => cases right <;> simp [compareLists]
  | cons first rest ih => cases right <;> simp [compareLists, Ordering.then_eq_eq, ih]

end Parts

@[simp]
theorem Source.Span.compare_eq_iff (left right : Span) : left.compare right = .eq ↔ left = right := by
  cases left
  cases right
  simp [Span.compare, Ordering.then_eq_eq]

theorem ErrorCode.find_number (code : ErrorCode) :
    all.find? (fun other => other.number = code.number) = some code := by
  cases code <;> rfl

theorem ErrorCode.eq_of_number_eq {left right : ErrorCode} (same : left.number = right.number) :
    left = right := by
  have found := find_number right
  rw [← same, find_number left] at found
  exact Option.some.inj found

instance : Std.LawfulEqOrd ErrorCode :=
  lawfulEqOrd_of_iff fun _ _ => (Std.compare_eq_iff_eq (α := Nat)).trans
    ⟨ErrorCode.eq_of_number_eq, congrArg ErrorCode.number⟩

instance : Std.LawfulEqOrd Severity :=
  lawfulEqOrd_of_iff fun left right => by cases left <;> cases right <;> decide

instance : Std.LawfulEqOrd Role :=
  lawfulEqOrd_of_iff fun left right => by cases left <;> cases right <;> decide

instance : Std.LawfulEqOrd NoteKind :=
  lawfulEqOrd_of_iff fun left right => by cases left <;> cases right <;> decide

instance : Std.LawfulEqOrd Highlight := by
  refine lawfulEqOrd_of_iff fun left right => ?_
  change (left.span.compare right.span).then
    ((compare left.role right.role).then (compareOptions left.label right.label)) = .eq ↔ _
  cases left
  cases right
  simp [Ordering.then_eq_eq]

instance : Std.LawfulEqOrd Note := by
  refine lawfulEqOrd_of_iff fun left right => ?_
  change (compare left.kind right.kind).then (compare left.text right.text) = .eq ↔ _
  cases left
  cases right
  simp [Ordering.then_eq_eq]

instance : Std.LawfulEqOrd Diagnostic := by
  refine lawfulEqOrd_of_iff fun left right => ?_
  change (compareLists left.highlights right.highlights).then
    ((compareLists left.notes right.notes).then ((compareOptions left.code right.code).then
      ((compareOptions left.message right.message).then
        (compare left.severity right.severity)))) = .eq ↔ _
  cases left
  cases right
  simp only [Ordering.then_eq_eq, compareLists_eq_iff, compareOptions_eq_iff,
    Std.compare_eq_iff_eq, Diagnostic.mk.injEq]
  constructor
  · rintro ⟨highlights, notes, code, message, severity⟩
    exact ⟨severity, code, message, highlights, notes⟩
  · rintro ⟨severity, code, message, highlights, notes⟩
    exact ⟨highlights, notes, code, message, severity⟩

namespace Sorted

variable {α : Type} [Ord α] [Std.LawfulEqOrd α] {item : α} {items : List α}

theorem mem_insert {other : α} : other ∈ insert item items ↔ other = item ∨ other ∈ items := by
  fun_induction insert item items with
  | case1 => simp
  | case2 => simp
  | case3 first rest same =>
    obtain rfl := Std.LawfulEqOrd.eq_of_compare same
    simp
  | case4 first rest _ ih =>
    rw [List.mem_cons, ih, List.mem_cons]
    exact or_left_comm

/-- A new item is added to those that are there. -/
theorem length_insert (absent : item ∉ items) :
    (insert item items).length = items.length + 1 := by
  fun_induction insert item items with
  | case1 => rfl
  | case2 => rfl
  | case3 first rest same =>
    exact absurd (Std.LawfulEqOrd.eq_of_compare same ▸ List.mem_cons_self) absent
  | case4 first rest _ ih =>
    rw [List.length_cons, ih fun member => absent (List.mem_cons_of_mem first member),
      List.length_cons]

omit [Std.LawfulEqOrd α] in
/-- What is not looked for makes no difference wherever it is put. -/
theorem find?_insert {test : α → Bool} (ignored : test item = false) :
    (insert item items).find? test = items.find? test := by
  fun_induction insert item items with
  | case1 | case2 => simp [ignored]
  | case3 => rfl
  | case4 first rest _ ih => rw [List.find?_cons, List.find?_cons, ih]

end Sorted

namespace Diagnostic

/-- Another place does not change what a diagnostic is about. -/
@[simp]
theorem primarySpan?_seeAlso (diagnostic : Diagnostic) (span : Span) (label : String) :
    (diagnostic.seeAlso span label).primarySpan? = diagnostic.primarySpan? :=
  congrArg (Option.map Highlight.span) (Sorted.find?_insert rfl)

@[simp]
theorem primarySpan?_note (diagnostic : Diagnostic) (text : String) :
    (diagnostic.note text).primarySpan? = diagnostic.primarySpan? := rfl

@[simp]
theorem primarySpan?_help (diagnostic : Diagnostic) (text : String) :
    (diagnostic.help text).primarySpan? = diagnostic.primarySpan? := rfl

/-- A diagnostic is about the first place that it points at. -/
theorem primarySpan?_pointAt {diagnostic : Diagnostic} (bare : diagnostic.highlights = [])
    (span : Span) (label : String) : (diagnostic.pointAt span label).primarySpan? = some span := by
  simp [primarySpan?, pointAt, highlight, bare, Sorted.insert]

end Diagnostic

namespace Collector

theorem report_of_isError {diagnostic : Diagnostic} (isError : diagnostic.severity.isError = true)
    (collector : Collector) :
    (collector.report diagnostic).errorCount = collector.errorCount + 1 ∧
      (collector.report diagnostic).diagnostics =
        Sorted.insert diagnostic collector.diagnostics := by
  have notInfo : diagnostic.severity ≠ .info := by
    intro same
    rw [same] at isError
    cases isError
  simp [report, count, accepts, isError, notInfo]

/-- As many errors are counted as diagnostics are kept if no two of them are the same. -/
theorem reportAll_of_nodup {diagnostics : List Diagnostic}
    (areErrors : ∀ diagnostic ∈ diagnostics, diagnostic.severity.isError = true)
    (distinct : diagnostics.Nodup) {collector : Collector}
    (new : ∀ diagnostic ∈ diagnostics, diagnostic ∉ collector.diagnostics) :
    (collector.reportAll diagnostics).errorCount = collector.errorCount + diagnostics.length ∧
      (collector.reportAll diagnostics).diagnostics.length =
        collector.diagnostics.length + diagnostics.length := by
  induction diagnostics generalizing collector with
  | nil => exact ⟨rfl, rfl⟩
  | cons first rest ih =>
    obtain ⟨notLater, distinct⟩ := List.nodup_cons.mp distinct
    have isFirst := List.mem_cons_self (a := first) (l := rest)
    obtain ⟨count, kept⟩ := report_of_isError (areErrors first isFirst) collector
    have later : ∀ other ∈ rest, other ∉ (collector.report first).diagnostics := by
      intro other member inside
      rcases Sorted.mem_insert.mp (kept ▸ inside) with rfl | old
      · exact notLater member
      · exact new other (List.mem_cons_of_mem _ member) old
    have areLater := fun other member => areErrors other (List.mem_cons_of_mem _ member)
    obtain ⟨counts, keeps⟩ := ih areLater distinct later
    rw [count] at counts
    rw [kept, Sorted.length_insert (new first isFirst)] at keeps
    rw [reportAll, List.foldl_cons, ← reportAll, List.length_cons, counts, keeps]
    omega

end Collector

end Cadence
