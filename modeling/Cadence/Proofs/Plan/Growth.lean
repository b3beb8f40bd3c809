import Cadence.Proofs.Plan.Basic
import Mathlib.Data.List.Nodup

/-!
# Runs that know more find out more

When it is fixed what the fields of values are, a run from types of which more is known finds out
more, and defers fewer references. As long as it does not defer fewer of them, it finds out the
same. The number of deferred references therefore tells whether walking over a tree once more makes
a difference.
-/
namespace Cadence

/-- A type that was known stays the same. -/
def Grows (before after : Option Ty) : Prop := ∀ type ∈ before, type ∈ after

theorem Grows.refl (type : Option Ty) : Grows type type := fun _ => id

theorem Grows.trans {first second third : Option Ty} (left : Grows first second)
    (right : Grows second third) : Grows first third := fun type known => right type (left type known)

theorem Grows.antisymm {before after : Option Ty} (left : Grows before after)
    (right : Grows after before) : before = after :=
  Option.ext fun type => ⟨left type, right type⟩

/-- The types of all symbols that were known stay the same. -/
def Types.Grow (before after : Types) : Prop := ∀ index, Grows (before index) (after index)

namespace Types

variable {types before after : Types} {entries : List (SymbolIndex × Option Ty)} {index : SymbolIndex}

theorem Grow.refl (types : Types) : types.Grow types := fun _ => .refl _

theorem Grow.trans {first second third : Types} (left : first.Grow second)
    (right : second.Grow third) : first.Grow third := fun index => (left index).trans (right index)

theorem Grow.antisymm (left : before.Grow after) (right : after.Grow before) : before = after :=
  funext fun index => (left index).antisymm (right index)

@[simp]
theorem record_nil : types.record [] = types := rfl

theorem record_append (first second : List (SymbolIndex × Option Ty)) :
    types.record (first ++ second) = (types.record first).record second :=
  List.foldl_append

/-- Nothing is recorded about other symbols. -/
theorem record_of_notMem (other : index ∉ entries.map Prod.fst) : types.record entries index = types index := by
  induction entries generalizing types with
  | nil => rfl
  | cons first rest ih =>
    simp only [List.map_cons, List.mem_cons, not_or] at other
    exact (ih other.2).trans (Function.update_of_ne other.1 _ _)

/-- What is recorded does not depend on what was known. -/
theorem record_of_mem (member : index ∈ entries.map Prod.fst) :
    before.record entries index = after.record entries index := by
  induction entries generalizing before after with
  | nil => cases member
  | cons first rest ih =>
    by_cases later : index ∈ rest.map Prod.fst
    · exact ih later
    · obtain rfl : index = first.1 := by simpa [later] using member
      change record _ rest _ = record _ rest _
      simp only [record_of_notMem later, Function.update_self]

/-- If every symbol is recorded once, what is recorded of it stays. -/
theorem record_of_nodup (types : Types) (distinct : (entries.map Prod.fst).Nodup) {type : Option Ty}
    (member : (index, type) ∈ entries) : types.record entries index = type := by
  induction entries generalizing types with
  | nil => cases member
  | cons first rest ih =>
    simp only [List.map_cons, List.nodup_cons] at distinct
    rcases List.mem_cons.mp member with rfl | later
    · exact (record_of_notMem distinct.1).trans (Function.update_self _ _ _)
    · exact ih _ distinct.2 later

/-- To record what is known makes no difference. -/
theorem record_eq_self
    (known : ∀ index ∈ entries.map Prod.fst, before.record entries index = after index) :
    after.record entries = after := by
  funext index
  by_cases member : index ∈ entries.map Prod.fst
  · rw [← known index member]
    exact record_of_mem member
  · exact record_of_notMem member

theorem Grow.record (grow : before.Grow after) (entries : List (SymbolIndex × Option Ty)) :
    (before.record entries).Grow (after.record entries) := by
  intro index
  by_cases member : index ∈ entries.map Prod.fst
  · rw [record_of_mem member]
    exact .refl _
  · rw [record_of_notMem member, record_of_notMem member]
    exact grow index

theorem Grow.record_entryOf (grow : before.Grow after) (symbol : Option SymbolIndex)
    {type type' : Option Ty} (known : Grows type type') :
    (before.record (entryOf symbol type)).Grow (after.record (entryOf symbol type')) := by
  cases symbol with
  | none => exact grow
  | some declared =>
    intro index
    by_cases own : index = declared
    · subst own
      simpa [Types.record, entryOf] using known
    · simpa [Types.record, entryOf, Function.update_of_ne own] using grow index

end Types

/-- What follows from more known types is more. -/
theorem Rule.type_grows (rule : Rule) {left left' right right' : Option Ty}
    (first : Grows left left') (second : Grows right right') :
    Grows (rule.type left right) (rule.type left' right') := by
  cases left with
  | some type =>
    obtain rfl : left' = some type := first type rfl
    cases rule with
    | second => exact second
    | nothing | first | result | binary | unary => exact .refl _
  | none =>
    -- only the operators that always yield truth values say something about nothing
    cases rule with
    | nothing | first | result => simp [Rule.type, Grows]
    | second => exact second
    | binary operator =>
      simp only [Rule.type, Operator.binaryType]
      split
      · exact .refl _
      · exact .refl _
      · simp [Grows]
    | unary operator =>
      simp only [Rule.type, Operator.unaryType]
      split
      · exact .refl _
      all_goals simp [Grows]

namespace Outcome

/-- One run finds out what another one does, and maybe more. -/
structure Grows (before after : Outcome) : Prop where
  types : before.types.Grow after.types
  type : Cadence.Grows before.type after.type
  deferred : after.deferred ≤ before.deferred
  missing : before.missing ⊆ after.missing

@[simp]
theorem deferred_plain (types : Types) (type : Option Ty) : (plain types type).deferred = 0 := rfl

@[simp]
theorem deferred_access (target : Outcome) (layouts : Types → Ty → Layout) (span : Source.Span)
    (field : Identifier) : (target.access layouts span field).deferred = target.deferred := by
  simp [deferred, access, Finding.isDeferred]

@[simp]
theorem deferred_finding (inner : Outcome) (span : Source.Span) :
    (inner.finding span).deferred = inner.deferred := by
  simp [deferred, finding, Finding.isDeferred]

@[simp]
theorem deferred_declaring (inner : Outcome) (entries : List (SymbolIndex × Option Ty)) :
    (inner.declaring entries).deferred = inner.deferred := rfl

@[simp]
theorem deferred_combine (rule : Rule) (first second : Outcome) :
    (combine rule first second).deferred = first.deferred + second.deferred := by
  simp [deferred, combine]

end Outcome

namespace Plan

variable {plan : Plan} {layout : Ty → Layout} {before after : Types}

/-- What is asked of the fields of a value can only be answered if the type of the value is known. -/
theorem elim_layout_grows (layout : Ty → Layout) {type type' : Option Ty} (known : Grows type type') (field : Identifier) :
    Grows ((type.elim Layout.unknown layout).fieldType? field)
      ((type'.elim Layout.unknown layout).fieldType? field) ∧
    (type.elim Layout.unknown layout).missing field ⊆ (type'.elim Layout.unknown layout).missing field := by
  cases type with
  | none => simp [Layout.fieldType?, Layout.missing, Grows]
  | some found =>
    obtain rfl : type' = some found := known found rfl
    exact ⟨.refl _, fun _ => id⟩

theorem run_grows (plan : Plan) (layout : Ty → Layout) (grow : before.Grow after) :
    (plan.run (fun _ => layout) before).Grows (plan.run (fun _ => layout) after) := by
  induction plan generalizing before after with
  | value type => exact ⟨grow, .refl _, Nat.le_refl _, fun _ => id⟩
  | stated type => exact ⟨grow, .refl _, Nat.le_refl _, fun _ => id⟩
  | reference span name symbol =>
    have known : Grows (symbol.bind before) (symbol.bind after) := by
      cases symbol with
      | none => exact .refl _
      | some index => exact grow index
    refine ⟨grow, known, ?_, fun _ => id⟩
    -- a reference that is no longer deferred is the only difference there can be
    cases symbol with
    | none => exact Nat.le_refl _
    | some index =>
      cases former : before index with
      | none => 
        exact Nat.le_trans List.countP_le_length
          (by simp [run, Outcome.deferred, former, Finding.isDeferred])
      | some type =>
        have same := Option.mem_def.mp (grow index type former)
        simp [run, Outcome.deferred, Finding.isDeferred, former, same]
  | field span target name ih =>
    have inner := ih grow
    obtain ⟨known, missing⟩ := elim_layout_grows layout inner.type name
    refine ⟨inner.types, known, by simpa [run] using inner.deferred, ?_⟩
    exact List.append_subset.mpr ⟨List.Subset.trans inner.missing (List.subset_append_left _ _),
      List.Subset.trans missing (List.subset_append_right _ _)⟩
  | expression span inner ih =>
    have inner := ih grow
    exact ⟨inner.types, inner.type, by simpa [run] using inner.deferred, inner.missing⟩
  | external head => exact ⟨grow.record _, .refl _, Nat.le_refl _, fun _ => id⟩
  | procedure head body ih =>
    have inner := ih (grow.record (head.entries ++ Member.entries head.parameters))
    exact ⟨inner.types, .refl _, by simpa [run] using inner.deferred, inner.missing⟩
  | struct declared => exact ⟨grow.record _, .refl _, Nat.le_refl _, fun _ => id⟩
  | binding head initial ih =>
    have inner := ih grow
    refine ⟨inner.types.record_entryOf head.symbol ?_, .refl _, by simpa [run] using inner.deferred, inner.missing⟩
    cases head.type with
    | none => exact inner.type
    | some type => exact .refl _
  | combine rule first second ihFirst ihSecond =>
    have left := ihFirst grow
    have right := ihSecond left.types
    refine ⟨right.types, rule.type_grows left.type right.type, ?_, ?_⟩
    · simpa [run] using Nat.add_le_add left.deferred right.deferred
    · exact List.append_subset.mpr ⟨List.Subset.trans left.missing (List.subset_append_left _ _),
        List.Subset.trans right.missing (List.subset_append_right _ _)⟩

/-- A run has no effect on other symbols than those that are declared. -/
theorem run_types_of_notMem (plan : Plan) {layouts : Types → Ty → Layout} {types : Types}
    {index : SymbolIndex} (other : index ∉ plan.symbols) :
    (plan.run layouts types).types index = types index := by
  induction plan generalizing types with
  | value | stated | reference => rfl
  | field span target name ih => exact ih other
  | expression span inner ih => exact ih other
  | external head => exact Types.record_of_notMem other
  | procedure head body ih =>
    simp only [symbols_procedure, List.mem_append, not_or] at other
    exact (ih other.2).trans (Types.record_of_notMem other.1)
  | struct declared => exact Types.record_of_notMem other
  | binding head initial ih =>
    simp only [symbols_binding, List.mem_append, not_or] at other
    exact (Types.record_of_notMem (by simpa using other.2)).trans (ih other.1)
  | combine rule first second ihFirst ihSecond =>
    simp only [symbols_combine, List.mem_append, not_or] at other
    exact (ihSecond other.2).trans (ihFirst other.1)

end Plan

namespace Outcome

/-- Two runs find out the same, and the same about the types of some symbols. -/
structure Agrees (symbols : List SymbolIndex) (left right : Outcome) : Prop where
  types : ∀ index ∈ symbols, left.types index = right.types index
  type : left.type = right.type
  findings : left.findings = right.findings
  missing : left.missing = right.missing

theorem Agrees.eq {symbols : List SymbolIndex} {left right : Outcome}
    (agrees : left.Agrees symbols right)
    (outside : ∀ index ∉ symbols, left.types index = right.types index) : left = right := by
  obtain ⟨types, type, findings, missing⟩ := left
  obtain ⟨inside, rfl, rfl, rfl⟩ := agrees
  congr
  funext index
  by_cases member : index ∈ symbols
  · exact inside index member
  · exact outside index member

end Outcome

namespace Plan

variable {layout : Ty → Layout} {before after : Types}

/-- A run that knows more and does not defer fewer references finds out the same. -/
theorem run_agrees (plan : Plan) (grow : before.Grow after)
    (same : (plan.run (fun _ => layout) before).deferred ≤
      (plan.run (fun _ => layout) after).deferred) :
    (plan.run (fun _ => layout) before).Agrees plan.symbols (plan.run (fun _ => layout) after) := by
  induction plan generalizing before after with
  | value type => exact ⟨by simp [symbols, entries], rfl, rfl, rfl⟩
  | stated type => exact ⟨by simp [symbols, entries], rfl, rfl, rfl⟩
  | reference span name symbol =>
    have known : symbol.bind before = symbol.bind after := by
      cases symbol with
      | none => rfl
      | some index =>
        cases former : before index with
        | some type =>
          have same := Option.mem_def.mp (grow index type former)
          simp [former, same]
        | none =>
          -- the reference is deferred in the first run, and so it is in the second one
          cases latter : after index with
          | none => simp [former, latter]
          | some type => simp [run, Outcome.deferred, former, latter, Finding.isDeferred] at same
    exact ⟨by simp [symbols, entries], known, by simp [run, known], rfl⟩
  | field span target name ih =>
    have inner := ih grow (by simpa [run] using same)
    refine ⟨inner.types, ?_, ?_, ?_⟩
    all_goals simp [run, Outcome.access, inner.type, inner.findings, inner.missing]
  | expression span inner ih =>
    have inner := ih grow (by simpa [run] using same)
    refine ⟨inner.types, inner.type, ?_, inner.missing⟩
    simp [run, Outcome.finding, inner.type, inner.findings]
  | external head => exact ⟨fun _ => Types.record_of_mem, rfl, rfl, rfl⟩
  | procedure head body ih =>
    have inner := ih (grow.record _) (by simpa [run] using same)
    refine ⟨fun index member => ?_, rfl, inner.findings, inner.missing⟩
    by_cases inBody : index ∈ body.symbols
    · exact inner.types index inBody
    · have own := (List.mem_append.mp (symbols_procedure head body ▸ member)).resolve_right inBody
      change (body.run _ _).types index = (body.run _ _).types index
      rw [run_types_of_notMem body inBody, run_types_of_notMem body inBody]
      exact Types.record_of_mem own
  | struct declared => exact ⟨fun _ => Types.record_of_mem, rfl, rfl, rfl⟩
  | binding head initial ih =>
    have inner := ih grow (by simpa [run] using same)
    refine ⟨fun index member => ?_, rfl, inner.findings, inner.missing⟩
    simp only [run, Outcome.declaring, inner.type]
    by_cases own : index ∈ head.symbol.toList
    · exact Types.record_of_mem (by simpa using own)
    · have inInitial := (List.mem_append.mp (symbols_binding head initial ▸ member)).resolve_right own
      rw [Types.record_of_notMem (by simpa using own), Types.record_of_notMem (by simpa using own)]
      exact inner.types index inInitial
  | combine rule first second ihFirst ihSecond =>
    have left := first.run_grows layout grow
    have right := second.run_grows layout left.types
    -- neither part defers more references in the second run, so that both defer as many
    have leftLess := left.deferred
    have rightLess := right.deferred
    simp only [run, Outcome.deferred_combine] at same
    have firstAgrees := ihFirst grow (by omega)
    have secondAgrees := ihSecond left.types (by omega)
    refine ⟨fun index member => ?_, ?_, ?_, ?_⟩
    · by_cases inSecond : index ∈ second.symbols
      · exact secondAgrees.types index inSecond
      · have inFirst :=
          (List.mem_append.mp (symbols_combine rule first second ▸ member)).resolve_right inSecond
        change (second.run _ _).types index = (second.run _ _).types index
        rw [run_types_of_notMem second inSecond, run_types_of_notMem second inSecond]
        exact firstAgrees.types index inFirst
    · simp only [run, Outcome.combine, firstAgrees.type, secondAgrees.type]
    · simp only [run, Outcome.combine, firstAgrees.findings, secondAgrees.findings]
    · simp only [run, Outcome.combine, firstAgrees.missing, secondAgrees.missing]

/-- A symbol whose type is written down is of this type, if each symbol is declared once. -/
theorem run_types_of_written (plan : Plan) {layouts : Types → Ty → Layout} {types : Types}
    (distinct : plan.symbols.Nodup) {index : SymbolIndex} {type : Ty}
    (written : (index, some type) ∈ plan.entries) :
    (plan.run layouts types).types index = some type := by
  have declared {entries : List (SymbolIndex × Option Ty)} (member : (index, some type) ∈ entries) :
      index ∈ entries.map Prod.fst := List.mem_map_of_mem (f := Prod.fst) member
  -- what is recorded for a symbol stays, since no symbol is declared twice
  induction plan generalizing types with
  | value | stated | reference => cases written
  | field span target name ih => exact ih distinct written
  | expression span inner ih => exact ih distinct written
  | external head => exact types.record_of_nodup distinct written
  | procedure head body ih =>
    rw [symbols_procedure, List.nodup_append'] at distinct
    rcases List.mem_append.mp written with own | inBody
    · rw [← types.record_of_nodup distinct.1 own]
      exact run_types_of_notMem body fun again => distinct.2.2 (declared own) again
    · exact ih distinct.2.1 inBody
  | struct declared => exact types.record_of_nodup distinct written
  | binding head initial ih =>
    rw [symbols_binding, List.nodup_append'] at distinct
    rcases List.mem_append.mp written with inInitial | own
    · rw [← @ih types distinct.1 inInitial]
      refine Types.record_of_notMem fun again => distinct.2.2 (declared inInitial) ?_
      simpa using again
    · -- what is written down comes before what is found out
      obtain ⟨symbol, same⟩ := mem_entryOf.mp own
      refine Types.record_of_nodup _ (by simpa using distinct.2.1) (mem_entryOf.mpr ⟨symbol, ?_⟩)
      rw [Option.or_none] at same
      rw [same, Option.some_or]
  | combine rule first second ihFirst ihSecond =>
    rw [symbols_combine, List.nodup_append'] at distinct
    rcases List.mem_append.mp written with inFirst | inSecond
    · rw [← @ihFirst types distinct.1 inFirst]
      exact run_types_of_notMem second fun again => distinct.2.2 (declared inFirst) again
    · exact ihSecond distinct.2.1 inSecond

end Plan

end Cadence
