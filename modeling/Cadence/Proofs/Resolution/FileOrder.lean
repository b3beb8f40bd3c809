import Cadence.Proofs.Resolution.Frame
import Cadence.Proofs.Resolution.Reordering

/-!
# The order of the files of a unit

Which names are misused in a unit does not depend on the order of its files. Whether a field is missing
can: a file is not walked over again when a later file makes the type of a global binding known, so a
field may be asked of something whose type is not known yet, and then nothing is said about it. If no
reference of a unit is left in this way, no order of the files has an error that this one does not have.
-/
namespace Cadence

open Source (File)

/-- No reference is left without a type if the type of its symbol is known in the end. -/
def Resolved.IsSettled (resolved : Resolved) : Prop :=
  ∀ expression ∈ resolved.files.flatMap Node.expressionsAll, ∀ binder index,
    expression.form = .reference binder (some index) → expression.type = none →
      resolved.table.type? index = none

/-- An expression is not a reference without a type to a symbol of a known type. -/
def Expr.isSettled (table : SymbolTable) (expression : Expr) : Bool :=
  match expression.form with
  | .reference _ (some index) => expression.type.isSome || (table.type? index).isNone
  | _ => true

theorem Expr.isSettled_iff {table : SymbolTable} {expression : Expr} :
    expression.isSettled table = true ↔ ∀ binder index, expression.form = .reference binder (some index) →
      expression.type = none → table.type? index = none := by
  unfold isSettled
  split
  next binder index form =>
    simp only [Bool.or_eq_true, Option.isSome_iff_ne_none, Option.isNone_iff_eq_none, form,
      Form.reference.injEq, Option.some.injEq]
    constructor
    · rintro known _ _ ⟨rfl, rfl⟩ untyped
      exact known.resolve_left (not_not_intro untyped)
    · exact fun settled => or_iff_not_imp_left.mpr fun untyped =>
        settled binder index ⟨rfl, rfl⟩ (not_not.mp untyped)
  next others => exact ⟨fun _ binder index form => absurd form (others binder index), fun _ => rfl⟩

instance (resolved : Resolved) : Decidable resolved.IsSettled :=
  decidable_of_iff
    (∀ expression ∈ resolved.files.flatMap Node.expressionsAll, expression.isSettled resolved.table = true)
    (forall₂_congr fun _ _ => Expr.isSettled_iff)

namespace Resolved.Runs

variable {files : List (List Node)} {resolved : Resolved} {outcomes : List Outcome}
  (runs : resolved.Runs (Registered.ofFiles files) outcomes)
  (formed : WellFormedTrees files)
  (distinct : HaveDistinctNames (Registered.ofFiles files).declarations)
include runs formed distinct

/-- In a unit without errors in which all references are settled, a solution was found. -/
theorem exists_solution (right : resolved.errors = []) (settled : resolved.IsSettled) :
    ∃ types, Plan.IsSolution (Registered.ofFiles files).layout (Registered.ofFiles files).boundPlans
      (Registered.ofFiles files).written types := by
  obtain ⟨misnamed, missing⟩ := runs.errors_eq_nil_iff.mp right
  obtain ⟨outcomes', final', settle, finds, completes⟩ :=
    Registered.exists_completed formed distinct (Plan.denotesStructs_of_misnamed misnamed) runs
  have symbols : (Registered.ofFiles files).boundPlan.symbols =
      (Registered.ofFiles files).boundPlans.flatMap Plan.symbols := by
    rw [Registered.boundPlan_eq, Plan.symbols_sequence]
    rfl
  refine ⟨final', settle.isSolution (Registered.nodup_symbols_bindAll files)
    Registered.isFresh_boundPlans ?_ (Plan.missing_of_completed finds ▸ missing)⟩
  -- a completed reference is without a type only if the reference in the unit is
  intro last' ran' finding' member index usage untyped
  obtain ⟨last, ran, same, _⟩ := exists_mem_related finds.flip ran'
  rw [same] at member
  obtain ⟨finding, found, rfl⟩ := List.mem_map.mp member
  have present : finding ∈ (resolved.files.flatMap Node.expressionsAll).map Expr.finding := by
    rw [runs.findings_eq]
    exact List.mem_flatMap.mpr ⟨last, ran, found⟩
  obtain ⟨expression, inside, rfl⟩ := List.mem_map.mp present
  by_cases declared : index ∈ (Registered.ofFiles files).boundPlan.symbols
  · obtain ⟨former, own, kept⟩ := Usage.eq_reference_of_map usage
    rw [Option.map_id_fun, id] at kept
    obtain ⟨binder, form⟩ := Form.exists_reference (kept ▸ own)
    rw [completes index (.inr declared),
      settled expression inside binder index form (Option.map_eq_none_iff.mp untyped)]
    rfl
  · rw [settle.types_of_notMem (symbols ▸ declared)]
    exact Types.record_of_notMem declared

end Resolved.Runs

/-- A unit is made of its files. -/
theorem Registered.consistsOf_files (files : List (List Node)) :
    (ofFiles files).ConsistsOf (ofFiles files).plans where
  declarations_eq := by
    rw [declarations, plans, List.flatMap_map]
    exact List.flatMap_congr fun nodes _ => (Node.declarations_planAll nodes).symm
  misnamed_eq := rfl
  entries_eq := by rw [boundPlan_eq, Plan.entries_sequence]

/-- Files in another order are given other symbols. -/
theorem Registered.exists_reorders_files {files files' : List (List Node)} (formed : WellFormedTrees files)
    (perm : files'.Perm files) :
    ∃ σ : Equiv.Perm SymbolIndex, (ofFiles files').plans.Perm ((ofFiles files).plans.map (Plan.rename σ)) := by
  have blank : ∀ nodes ∈ files, (Node.planAll nodes).IsBlank := fun nodes member =>
    Node.isBlank_all ((Node.isWellFormedAll_iff _).mpr (formed nodes member))
  obtain ⟨σ, _, same⟩ := Plan.exists_renaming Node.planAll perm blank 1
  have plans := perm_of_zip same (by simp) (by simp)
  rw [← plans_ofFiles, ← plans_ofFiles] at plans
  exact ⟨σ, plans⟩

/-- The order of the files of a unit makes no difference to which names are misused in it. If there
are no errors in one order, and no reference of the trees that were registered is left without a type
that is known in the end, there are none in any order. -/
theorem file_order_irrelevant {files files' : List File} (perm : files'.Perm files)
    (distinct : (Registered.ofFiles (treesOf files)).HasDistinctGlobals) :
    ∃ resolved resolved', Resolved.ofRegistered (Registered.ofFiles (treesOf files)) = .ok resolved ∧
      Resolved.ofRegistered (Registered.ofFiles (treesOf files')) = .ok resolved' ∧
      resolved.files.map Node.frameAll = (Registered.ofFiles (treesOf files)).files.map Node.frameAll ∧
      (resolved'.errors.filterMap ResolutionError.misnaming?).Perm
        (resolved.errors.filterMap ResolutionError.misnaming?) ∧
      (resolved.errors = [] → resolved.IsSettled → resolved'.errors = []) := by
  have formed := wellFormed_treesOf files
  have formed' := wellFormed_treesOf files'
  have trees : (treesOf files').Perm (treesOf files) := perm.map _
  obtain ⟨resolved, run, _, outcomes, runs⟩ := Resolved.exists_settled formed
  obtain ⟨resolved', run', _, outcomes', runs'⟩ := Resolved.exists_settled formed'
  obtain ⟨σ, reorders⟩ := Registered.exists_reorders_files formed trees
  have consists := Registered.consistsOf_files (treesOf files)
  have consists' := Registered.consistsOf_files (treesOf files')
  have names := consists.declarations_eq ▸ distinct.names
  have misnamed := consists.misnamed consists' reorders names
  have framed := Resolved.map_frameAll_files formed run
  refine ⟨resolved, resolved', run, run', framed, ?_, fun right settled => ?_⟩
  · rw [runs.misnamed_eq, runs'.misnamed_eq]
    exact misnamed
  · -- a solution does not depend on the order, and where there is one, no walk misses a field
    obtain ⟨types, solution⟩ := runs.exists_solution formed distinct.names right settled
    have plain := Plan.AllWritten.of_sequence (Registered.isPlain_plan formed)
    have names' := names.reordered reorders
    rw [← consists'.declarations_eq] at names'
    rw [(runs.errors_eq_nil_iff.mp right).1] at misnamed
    exact runs'.errors_eq_nil_of_solution formed' names' misnamed.eq_nil
      (consists.isSolution consists' reorders names plain solution)

/-- A file that calls a procedure of the next one. -/
def callsAhead : File := ⟨.anonymous, "proc main() -> int = helper()".toList, 1⟩

def calledBehind : File := ⟨.anonymous, "proc helper() -> int = 0".toList, 31⟩

/-- The two files are without errors, all references in them are settled, and so they can be exchanged. -/
theorem file_order_exchanged :
    (Registered.ofFiles (treesOf [callsAhead, calledBehind])).HasDistinctGlobals ∧
    ∃ resolved resolved',
      Resolved.ofRegistered (Registered.ofFiles (treesOf [callsAhead, calledBehind])) = .ok resolved ∧
      Resolved.ofRegistered (Registered.ofFiles (treesOf [calledBehind, callsAhead])) = .ok resolved' ∧
      (resolved'.errors.filterMap ResolutionError.misnaming?).Perm
        (resolved.errors.filterMap ResolutionError.misnaming?) ∧
      resolved.errors = [] ∧ resolved.IsSettled ∧ resolved'.errors = [] := by
  -- all is evaluated at once, as this reads the files only once
  have evaluated : (Registered.ofFiles (treesOf [callsAhead, calledBehind])).HasDistinctGlobals ∧
      (match Resolved.ofRegistered (Registered.ofFiles (treesOf [callsAhead, calledBehind])) with
      | .ok resolved => resolved.errors.isEmpty && decide resolved.IsSettled
      | .error _ => false) = true := by
    unfold Registered.HasDistinctGlobals
    decide +kernel
  obtain ⟨distinct, evaluated⟩ := evaluated
  obtain ⟨resolved, resolved', run, run', _, same, keeps⟩ :=
    file_order_irrelevant (.swap callsAhead calledBehind []) distinct
  rw [run] at evaluated
  obtain ⟨right, settled⟩ := Bool.and_eq_true_iff.mp evaluated
  have right := List.isEmpty_iff.mp right
  have settled := of_decide_eq_true settled
  exact ⟨distinct, resolved, resolved', run, run', same, right, settled, keeps right settled⟩

/-- A file that asks for a field of a number of the next one. -/
def fieldAhead : File := ⟨.anonymous, "let a = b.x".toList, 1⟩

def numberBehind : File := ⟨.anonymous, "let b = 1".toList, 13⟩

/-- That a number has no fields is reported in one order of the files only. -/
theorem file_order_hides_access :
    (Registered.ofFiles (treesOf [fieldAhead, numberBehind])).HasDistinctGlobals ∧
    ∃ resolved resolved',
      Resolved.ofRegistered (Registered.ofFiles (treesOf [fieldAhead, numberBehind])) = .ok resolved ∧
      Resolved.ofRegistered (Registered.ofFiles (treesOf [numberBehind, fieldAhead])) = .ok resolved' ∧
      resolved.errors = [] ∧ resolved'.errors ≠ [] := by
  have evaluated : (Registered.ofFiles (treesOf [fieldAhead, numberBehind])).HasDistinctGlobals ∧
      (match Resolved.ofRegistered (Registered.ofFiles (treesOf [fieldAhead, numberBehind])),
          Resolved.ofRegistered (Registered.ofFiles (treesOf [numberBehind, fieldAhead])) with
      | .ok resolved, .ok resolved' => resolved.errors.isEmpty && !resolved'.errors.isEmpty
      | _, _ => false) = true := by
    unfold Registered.HasDistinctGlobals
    decide +kernel
  obtain ⟨distinct, evaluated⟩ := evaluated
  split at evaluated
  next resolved resolved' run run' =>
    obtain ⟨right, wrong⟩ := Bool.and_eq_true_iff.mp evaluated
    exact ⟨distinct, resolved, resolved', run, run', List.isEmpty_iff.mp right, by simpa using wrong⟩
  next => cases evaluated

end Cadence
