import Cadence.Proofs.Diagnostic.Order
import Cadence.Proofs.Plan.Accesses
import Cadence.Proofs.Plan.Sightings
import Cadence.Proofs.Resolution.Frame
import Mathlib.Data.List.Perm.Basic

/-!
# What is reported is what fails in the last walks

However often a file is walked over, the reports about it are those of the last walk, one for each
place at which something failed then: a name that stands for a value and denotes nothing, a name that
stands for a type and denotes nothing or no struct, and a field that is asked of what has no fields
or of a struct that does not have it.
-/
namespace Cadence

open Source (File)

/-- The misuse of a name that an error is about. -/
def ResolutionError.fault : ResolutionError → Misnaming
  | undefinedName name _ => ⟨.e020, name⟩
  | notAType name _ => ⟨.e021, name⟩
  | noFields field _ _ => ⟨.e022, field⟩
  | undefinedField _ field _ => ⟨.e023, field⟩

/-- The diagnostic has the code of the misuse and points at the name. -/
structure Misnaming.IsReportedBy (misused : Misnaming) (diagnostic : Diagnostic) : Prop where
  code_eq : diagnostic.code = some misused.code
  span_eq : diagnostic.primarySpan? = some misused.name.span

theorem ResolutionError.isReportedBy_diagnostic (error : ResolutionError) :
    error.fault.IsReportedBy error.diagnostic := by
  cases error with
  | undefinedName name lookalike => cases lookalike <;> exact ⟨rfl, rfl⟩
  | notAType name declaration =>
    exact ⟨rfl, (Diagnostic.primarySpan?_seeAlso _ _ _).trans (Diagnostic.primarySpan?_pointAt rfl _ _)⟩
  | noFields field target type =>
    exact ⟨rfl, (Diagnostic.primarySpan?_seeAlso _ _ _).trans (Diagnostic.primarySpan?_pointAt rfl _ _)⟩
  | undefinedField struct field lookalike => cases lookalike <;> exact ⟨rfl, rfl⟩

/-- Some errors are about names that are misused, the others about fields that are not there. -/
theorem ResolutionError.perm_fault (errors : List ResolutionError) :
    (errors.map fault).Perm (errors.filterMap misnaming? ++ errors.filterMap missing?) := by
  induction errors with
  | nil => exact .refl _
  | cons first rest ih =>
    cases first with
    | undefinedName | notAType => exact ih.cons _
    | noFields | undefinedField => exact (ih.cons _).trans List.perm_middle.symm

/-- How a name that stands for a value is misused, given what is recorded about it. -/
def unbound : Identifier × Option SymbolIndex → List Misnaming
  | (name, none) => [⟨.e020, name⟩]
  | (_, some _) => []

/-- What an expression asks for, if it is the access of a field. -/
def Expr.request? (expression : Expr) : Option (Option Ty × Identifier) :=
  expression.form.usage.request?

/-- Where what is recorded about a name is right, the name is misused if nothing is recorded about a
value, or if it does not denote what it has to as a type. -/
theorem Sighting.IsRight.misnamed_eq {sighting : Sighting} (right : sighting.IsRight) :
    sighting.misnamed = sighting.reference?.toList.flatMap unbound ++ sighting.misnamedType := by
  cases sighting with
  | typeName => rfl
  | reference around name symbol =>
    simp only [IsRight] at right
    simp only [misnamed, Environment.misnamedReference, Environment.headingOf?, reference?, misnamedType]
    cases denoted : around.denoted? name.value with
    | none =>
      rw [denoted] at right
      obtain rfl : symbol = none := right
      rfl
    | some declaration =>
      rw [denoted] at right
      obtain ⟨index, rfl⟩ := Option.isSome_iff_exists.mp right.1
      rfl

theorem perm_misnamed {sightings : List Sighting}
    (right : ∀ sighting ∈ sightings, sighting.IsRight) :
    (sightings.flatMap Sighting.misnamed).Perm
      ((sightings.filterMap Sighting.reference?).flatMap unbound ++
        sightings.flatMap Sighting.misnamedType) := by
  -- one sighting after the other, values come first; as a whole, all values come first
  rw [List.flatMap_congr fun sighting member => (right sighting member).misnamed_eq,
    List.filterMap_eq_flatMap_toList, List.flatMap_assoc]
  exact (List.flatMap_append_perm _ _ _).symm

namespace Resolved

variable (resolved : Resolved) (registered : Registered)

/-- The accesses of fields in the last walk over each file of a unit. -/
def accesses : List Access :=
  Plan.lastAccesses registered.layouts (resolved.files.map Node.planAll) registered.table.type?

/-- What fails in the last walk over each file of a unit: the names that stand for values and have no
symbol, the names that stand for types and do not denote a struct that is declared, and the accesses
of fields that are known not to be there. Nothing is known about the fields of a value whose type was
not found out, or is named by a name that is misused itself. -/
def failures : List Misnaming :=
  ((resolved.files.flatMap Node.expressionsAll).filterMap Expr.reference?).flatMap unbound ++
    (unitSightings resolved.files).flatMap Sighting.misnamedType ++
      (resolved.accesses registered).flatMap Access.misnamed

variable {resolved registered} {outcomes : List Outcome}

theorem Runs.misnamed_sightings (runs : resolved.Runs registered outcomes)
    (completes : resolved.Completes registered)
    (plain : (Plan.sequence registered.plans).AllWritten Ty.IsPlain) :
    resolved.errors.filterMap ResolutionError.misnaming? =
      (unitSightings resolved.files).flatMap Sighting.misnamed := by
  -- binding the names of a plan does not change which of them are misused
  rw [runs.misnamed_eq, ← Plan.misnamed_bind plain, Plan.bind_sequence, ← runs.plans_eq,
    ← misnamed_fileSightings, unitSightings, completes.declared_eq]
  rfl

theorem Runs.missing_accesses (runs : resolved.Runs registered outcomes) :
    resolved.errors.filterMap ResolutionError.missing? =
      (resolved.accesses registered).flatMap Access.misnamed := by
  rw [runs.missing_eq, runs.outcomes_eq, Plan.missing_lastRuns, accesses, runs.plans_eq]

/-- The accesses are the expressions that ask for a field. -/
theorem Runs.request_accesses (runs : resolved.Runs registered outcomes) :
    (resolved.files.flatMap Node.expressionsAll).filterMap Expr.request? =
      (resolved.accesses registered).map Access.request := by
  have found := congrArg (List.filterMap fun finding => finding.usage.request?) runs.findings_eq
  rw [runs.outcomes_eq, Plan.findings_lastRuns, List.filterMap_map] at found
  rw [accesses, runs.plans_eq, ← found]
  rfl

theorem Runs.perm_failures (runs : resolved.Runs registered outcomes)
    (completes : resolved.Completes registered)
    (plain : (Plan.sequence registered.plans).AllWritten Ty.IsPlain) :
    (resolved.failures registered).Perm (resolved.errors.map ResolutionError.fault) := by
  refine .symm ((ResolutionError.perm_fault resolved.errors).trans ?_)
  rw [runs.misnamed_sightings completes plain, runs.missing_accesses, failures,
    ← references_fileSightings]
  exact (perm_misnamed completes.right).append_right _

end Resolved

/-- The diagnostics of resolution are in bijection with what fails in the last walks over the files,
each of them with the code and the place of what it reports: one for each reference without a symbol,
one for each name of a type that denotes nothing or no struct, and one for each access of a field that
the type of the target does not have then. The files are those that were registered, the names in them
record what they denote, and the accesses are the expressions that ask for a field, with the types that
their targets have in the end. So there are errors if and only if something fails. -/
theorem diagnostics_are_failures_of_last_walks (files : List File) :
    let registered := Registered.ofFiles (treesOf files)
    ∃ resolved, Resolved.ofRegistered registered = .ok resolved ∧
      resolved.files.map Node.frameAll = registered.files.map Node.frameAll ∧
      (∀ sighting ∈ unitSightings resolved.files, sighting.IsRight) ∧
      (∃ failures, failures.Perm (resolved.failures registered) ∧
        List.Forall₂ Misnaming.IsReportedBy failures resolved.diagnostics) ∧
      (resolved.files.flatMap Node.expressionsAll).filterMap Expr.request? =
        (resolved.accesses registered).map Access.request ∧
      (resolved.errors = [] ↔ resolved.failures registered = []) := by
  intro registered
  have formed := wellFormed_treesOf files
  obtain ⟨resolved, run, completes, outcomes, runs⟩ := Resolved.exists_settled formed
  have framed := Resolved.map_frameAll_files formed run
  have perm := runs.perm_failures completes (Registered.isPlain_plan formed)
  refine ⟨resolved, run, framed, completes.right, ⟨_, perm.symm, ?_⟩, runs.request_accesses, ?_⟩
  · -- each diagnostic is the one of its own error
    rw [Resolved.diagnostics, List.forall₂_map_left_iff, List.forall₂_map_right_iff]
    exact List.forall₂_same.mpr fun error _ => error.isReportedBy_diagnostic
  · rw [← List.map_eq_nil_iff (f := ResolutionError.fault)]
    exact ⟨fun none => (none ▸ perm).eq_nil, fun none => (none ▸ perm).nil_eq.symm⟩

end Cadence
