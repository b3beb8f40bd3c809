import Cadence.Proofs.Diagnostic.Order
import Mathlib.Data.List.Sort

/-!
# What a collector keeps

The order of diagnostics is a total one, and so is the order of what they consist of. So there is
one ascending list of some items without repetitions, and an item that is inserted finds its place
whatever was inserted before. A collector ends up with the same diagnostics for all sequences of
reports that have the same members, and counts each error as often as it is reported.
-/
namespace Cadence

open Source (Span)

section Parts

variable {α : Type} [Ord α]

theorem compareOptions_eq : compareOptions (α := α) = compare := by
  funext left right
  cases left <;> cases right <;> rfl

theorem compareLists_eq : compareLists (α := α) = compare := by
  funext left right
  induction left generalizing right with
  | nil => cases right <;> rfl
  | cons first rest ih =>
    cases right with
    | nil => rfl
    | cons first' rest' => rw [compareLists, ih, List.compare_cons_cons]

instance [Std.TransOrd α] : Std.TransCmp (compareOptions (α := α)) := by
  rw [compareOptions_eq]
  infer_instance

instance [Std.TransOrd α] : Std.TransCmp (compareLists (α := α)) := by
  rw [compareLists_eq]
  infer_instance

end Parts

instance : Std.TransCmp Span.compare :=
  inferInstanceAs (Std.TransCmp (compareLex (compareOn Span.start) (compareOn Span.stop)))

instance : Std.TransOrd ErrorCode :=
  inferInstanceAs (Std.TransCmp (compareOn ErrorCode.number))

instance : Std.TransOrd Role where
  eq_swap {left right} := by cases left <;> cases right <;> rfl
  isLE_trans {left middle right} := by cases left <;> cases middle <;> cases right <;> decide

instance : Std.TransOrd NoteKind where
  eq_swap {left right} := by cases left <;> cases right <;> rfl
  isLE_trans {left middle right} := by cases left <;> cases middle <;> cases right <;> decide

instance : Std.TransOrd Severity where
  eq_swap {left right} := by cases left <;> cases right <;> rfl
  isLE_trans {left middle right} := by cases left <;> cases middle <;> cases right <;> decide

instance : Std.TransOrd Highlight :=
  inferInstanceAs (Std.TransCmp (compareLex (Ordering.byKey Highlight.span Span.compare)
    (compareLex (compareOn Highlight.role) (Ordering.byKey Highlight.label compareOptions))))

instance : Std.TransOrd Note :=
  inferInstanceAs (Std.TransCmp (compareLex (compareOn Note.kind) (compareOn Note.text)))

instance : Std.TransOrd Diagnostic :=
  inferInstanceAs (Std.TransCmp (compareLex (Ordering.byKey Diagnostic.highlights compareLists)
    (compareLex (Ordering.byKey Diagnostic.notes compareLists)
      (compareLex (Ordering.byKey Diagnostic.code compareOptions)
        (compareLex (Ordering.byKey Diagnostic.message compareOptions)
          (compareOn Diagnostic.severity))))))

/-- In ascending order, each item once. -/
def IsAscending {α : Type} [Ord α] (items : List α) : Prop :=
  items.Pairwise fun first second => compare first second = .lt

namespace IsAscending

variable {α : Type} [Ord α] [Std.TransOrd α] [Std.LawfulEqOrd α] {items others added : List α} {item : α}

omit [Std.LawfulEqOrd α] in
/-- What has the same members in ascending order is the same. -/
theorem eq_of_mem_iff (first : IsAscending items) (second : IsAscending others)
    (same : ∀ item, item ∈ items ↔ item ∈ others) : items = others := by
  have irrefl : Std.Irrefl fun first second : α => compare first second = .lt :=
    ⟨fun item less => by simp [Std.ReflCmp.compare_self] at less⟩
  have antisymm : Std.Antisymm fun first second : α => compare first second = .lt :=
    ⟨fun _ _ less greater => absurd greater (Std.OrientedCmp.not_lt_of_lt less)⟩
  exact List.Pairwise.eq_of_mem_iff first second same

/-- An item that is inserted finds its place. -/
theorem insert (ascending : IsAscending items) : IsAscending (Sorted.insert item items) := by
  fun_induction Sorted.insert item items with
  | case1 => exact List.pairwise_singleton _ _
  | case2 first rest less =>
    refine List.pairwise_cons.mpr ⟨List.forall_mem_cons.mpr ⟨less, fun other member => ?_⟩, ascending⟩
    exact Std.TransCmp.lt_trans less (List.rel_of_pairwise_cons ascending member)
  | case3 => exact ascending
  | case4 first rest greater ih =>
    obtain ⟨below, later⟩ := List.pairwise_cons.mp ascending
    refine List.pairwise_cons.mpr ⟨fun other member => ?_, ih later⟩
    rcases Sorted.mem_insert.mp member with rfl | old
    · exact Std.OrientedCmp.lt_of_gt greater
    · exact below other old

end IsAscending

namespace Sorted

variable {α : Type} [Ord α]

/-- Put some items where they belong, one after the other. -/
def insertAll (items : List α) (added : List α) : List α :=
  added.foldl (fun sorted item => insert item sorted) items

variable [Std.LawfulEqOrd α] {items added others : List α}

theorem mem_insertAll {item : α} : item ∈ insertAll items added ↔ item ∈ items ∨ item ∈ added := by
  induction added generalizing items with
  | nil => simp [insertAll]
  | cons first rest ih =>
    rw [insertAll, List.foldl_cons, ← insertAll, ih, mem_insert, List.mem_cons, or_assoc, or_left_comm]

variable [Std.TransOrd α] (ascending : IsAscending items)
include ascending

theorem isAscending_insertAll : IsAscending (insertAll items added) := by
  induction added generalizing items with
  | nil => exact ascending
  | cons first rest ih => exact ih ascending.insert

/-- It makes no difference in which order items are inserted, or how often. -/
theorem insertAll_congr (same : ∀ item, item ∈ added ↔ item ∈ others) :
    insertAll items added = insertAll items others := by
  refine (isAscending_insertAll ascending).eq_of_mem_iff (isAscending_insertAll ascending) fun item => ?_
  rw [mem_insertAll, mem_insertAll, same item]

end Sorted

namespace Diagnostic

/-- To highlight places one after the other inserts all of them. -/
theorem highlightAll_eq (diagnostic : Diagnostic) (places : List Highlight) :
    places.foldl highlight diagnostic =
      { diagnostic with highlights := Sorted.insertAll diagnostic.highlights places } := by
  induction places generalizing diagnostic with
  | nil => rfl
  | cons first rest ih => exact ih _

end Diagnostic

namespace Collector

variable (collector : Collector) (reports : List Diagnostic)

/-- The reports that are accepted are inserted, and all errors are counted. -/
theorem reportAll_eq : collector.reportAll reports = { collector with
    errorCount := collector.errorCount + reports.countP fun report => report.severity.isError
    diagnostics := Sorted.insertAll collector.diagnostics (reports.filter collector.accepts) } := by
  induction reports generalizing collector with
  | nil => rfl
  | cons first rest ih =>
    have step : collector.report first = { collector with
        errorCount := collector.errorCount + if first.severity.isError then 1 else 0
        diagnostics := if collector.accepts first then Sorted.insert first collector.diagnostics
          else collector.diagnostics } := by
      rw [report, count]
      split <;> split <;> rfl
    have accepts : (collector.report first).accepts = collector.accepts := by
      rw [step]
      rfl
    rw [reportAll, List.foldl_cons, ← reportAll, ih, accepts, step, List.countP_cons, List.filter_cons]
    by_cases accepted : collector.accepts first = true
    · rw [if_pos accepted, if_pos accepted, Nat.add_assoc, Nat.add_comm (List.countP _ rest)]
      rfl
    · rw [if_neg accepted, if_neg accepted, Nat.add_assoc, Nat.add_comm (List.countP _ rest)]

end Collector

/-- Diagnostics are totally ordered, and only the same one compares as equal. The highlights of a
diagnostic do not depend on the order in which they were added, or on how often. So a collector that
starts empty ends up with the diagnostics that it accepts in ascending order, each once: the same ones
for all sequences of reports that have the same members. It counts each error as often as it is
reported. -/
theorem diagnostics_are_collected_in_order :
    ((∀ left right : Diagnostic, compare left right = (compare right left).swap) ∧
      (∀ left middle right : Diagnostic, (compare left middle).isLE → (compare middle right).isLE →
        (compare left right).isLE) ∧
      ∀ left right : Diagnostic, compare left right = .eq ↔ left = right) ∧
    (∀ (diagnostic : Diagnostic) (places others : List Highlight), IsAscending diagnostic.highlights →
      (∀ place, place ∈ places ↔ place ∈ others) →
        IsAscending (places.foldl Diagnostic.highlight diagnostic).highlights ∧
          places.foldl Diagnostic.highlight diagnostic = others.foldl Diagnostic.highlight diagnostic) ∧
    ∀ (verbose : Bool) (reports : List Diagnostic),
      let collected := Collector.reportAll { verbose } reports
      IsAscending collected.diagnostics ∧
        (∀ diagnostic, diagnostic ∈ collected.diagnostics ↔
          diagnostic ∈ reports ∧ (diagnostic.severity = .info → verbose)) ∧
        (∀ others, (∀ diagnostic, diagnostic ∈ others ↔ diagnostic ∈ reports) →
          (Collector.reportAll { verbose } others).diagnostics = collected.diagnostics) ∧
        (∀ others, others.Perm reports → Collector.reportAll { verbose } others = collected) ∧
        collected.errorCount = reports.countP fun report => report.severity.isError := by
  have empty : IsAscending ([] : List Diagnostic) := List.Pairwise.nil
  refine ⟨⟨fun _ _ => Std.OrientedCmp.eq_swap, fun _ _ _ => Std.TransCmp.isLE_trans,
    fun _ _ => Std.LawfulEqCmp.compare_eq_iff_eq⟩, ?_, ?_⟩
  · intro diagnostic places others ascending same
    rw [Diagnostic.highlightAll_eq, Diagnostic.highlightAll_eq, Sorted.insertAll_congr ascending same]
    exact ⟨Sorted.isAscending_insertAll ascending, rfl⟩
  · intro verbose reports
    -- the collector accepts the same diagnostics throughout
    have same (others : List Diagnostic) (members : ∀ diagnostic, diagnostic ∈ others ↔ diagnostic ∈ reports) :
        Sorted.insertAll [] (others.filter (Collector.accepts { verbose })) =
          Sorted.insertAll [] (reports.filter (Collector.accepts { verbose })) :=
      Sorted.insertAll_congr empty fun diagnostic => by
        rw [List.mem_filter, List.mem_filter, members diagnostic]
    simp only [Collector.reportAll_eq, Nat.zero_add]
    refine ⟨Sorted.isAscending_insertAll empty, fun diagnostic => ?_, same, fun others perm => ?_, trivial⟩
    · rw [Sorted.mem_insertAll, List.mem_filter]
      simp [Collector.accepts, imp_iff_not_or]
    · rw [same others fun diagnostic => perm.mem_iff, perm.countP_eq]

/-- An error at two places, of which one is highlighted twice, and an error that is reported twice,
before and after a warning: only the count differs from what comes of each place and each report
once. -/
theorem repeated_error_is_collected_once :
    (IsAscending (Diagnostic.plainError "failed").highlights ∧
      ∀ place, place ∈ [⟨⟨2, 3⟩, .primary, none⟩, ⟨⟨0, 1⟩, .primary, none⟩, ⟨⟨2, 3⟩, .primary, none⟩] ↔
        place ∈ [(⟨⟨0, 1⟩, .primary, none⟩ : Highlight), ⟨⟨2, 3⟩, .primary, none⟩]) ∧
      (((Diagnostic.plainError "failed").pointAtUnlabeled ⟨2, 3⟩).pointAtUnlabeled ⟨0, 1⟩).pointAtUnlabeled ⟨2, 3⟩ =
        ((Diagnostic.plainError "failed").pointAtUnlabeled ⟨0, 1⟩).pointAtUnlabeled ⟨2, 3⟩ ∧
      (∀ diagnostic, diagnostic ∈ [.warning "unused", .plainError "failed"] ↔
        diagnostic ∈ [Diagnostic.plainError "failed", .warning "unused", .plainError "failed"]) ∧
      (Collector.reportAll {} [.warning "unused", .plainError "failed"]).diagnostics =
        (Collector.reportAll {} [.plainError "failed", .warning "unused", .plainError "failed"]).diagnostics ∧
      (Collector.reportAll {} [.plainError "failed", .warning "unused", .plainError "failed"]).errorCount = 2 := by
  have twice {α : Type} (first second item : α) :
      item ∈ [second, first, second] ↔ item ∈ [first, second] := by
    simp only [List.mem_cons, List.not_mem_nil, or_false]
    tauto
  obtain ⟨_, highlights, collects⟩ := diagnostics_are_collected_in_order
  obtain ⟨_, _, same, _, count⟩ := collects false [.plainError "failed", .warning "unused", .plainError "failed"]
  have ascending : IsAscending (Diagnostic.plainError "failed").highlights := List.Pairwise.nil
  have members (diagnostic : Diagnostic) := (twice (.warning "unused") (.plainError "failed") diagnostic).symm
  exact ⟨⟨ascending, twice _ _⟩, (highlights _ _ _ ascending (twice _ _)).2, members, same _ members, count⟩

end Cadence
