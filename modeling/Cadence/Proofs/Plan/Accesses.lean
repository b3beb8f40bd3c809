import Cadence.Proofs.Plan.Errors

/-!
# Accesses of fields in a walk

Which fields are asked for in a walk over a tree, of values of which types, and what is known about
the fields of these values at that moment. This decides which fields the walk misses, and everything
that a walk reports is about the access of a field or about a name that is used.
-/
namespace Cadence

/-- A field that is asked of something of some type, if it has one, and what is known about the fields
of that type then. -/
structure Access where
  target : Option Ty
  field : Identifier
  layout : Layout

namespace Access

/-- What is asked for. -/
def request (access : Access) : Option Ty × Identifier := (access.target, access.field)

/-- How the access fails, if it does. -/
def misnamed (access : Access) : List Misnaming := access.layout.missing access.field

/-- An error can be about the access. -/
def Reports (access : Access) (error : ResolutionError) : Prop :=
  ∃ type place, error ∈ access.layout.errors type place access.field

end Access

/-- What an expression asks for, if it is the access of a field. -/
def Usage.request? : Usage → Option (Option Ty × Identifier)
  | access target field => some (target, field)
  | reference _ | other => none

namespace Plan

variable (layouts : Types → Ty → Layout)

/-- The accesses of fields in a walk over a tree. -/
def accesses : Plan → Types → List Access
  | value _, _ | stated _, _ | reference _ _ _, _ | external _, _ | struct _, _ => []
  | .field _ target name, types =>
    let found := target.run layouts types
    target.accesses types ++
      [⟨found.type, name, found.type.elim .unknown (layouts found.types)⟩]
  | expression _ inner, types => inner.accesses types
  | procedure head body, types =>
    body.accesses (types.record (head.entries ++ Member.entries head.parameters))
  | binding _ initial, types => initial.accesses types
  | combine _ first second, types =>
    first.accesses types ++ second.accesses (first.run layouts types).types

/-- The accesses of fields in the last walk over each of several trees, one after the other. -/
def lastAccesses : List Plan → Types → List Access
  | [], _ => []
  | plan :: plans, types =>
    plan.accesses layouts (plan.lastTypes layouts types) ++
      lastAccesses plans (plan.lastRun layouts types).types

variable {layouts}

/-- The fields that a walk misses are those whose accesses fail. -/
theorem missing_run (plan : Plan) (types : Types) :
    (plan.run layouts types).missing = (plan.accesses layouts types).flatMap Access.misnamed := by
  induction plan generalizing types with
  | value | stated | reference | external | struct => rfl
  | field span target name ih =>
    rw [accesses, List.flatMap_append, ← ih]
    exact congrArg (_ ++ ·) (List.flatMap_singleton _ _).symm
  | expression span inner ih => exact ih types
  | procedure head body ih => exact ih _
  | binding head initial ih => exact ih types
  | combine rule first second ihFirst ihSecond =>
    rw [accesses, List.flatMap_append, ← ihFirst, ← ihSecond]
    rfl

/-- The expressions that a walk finds to be accesses of fields are these accesses. -/
theorem findings_run (plan : Plan) (types : Types) :
    ((plan.run layouts types).findings.filterMap fun finding => finding.usage.request?) =
      (plan.accesses layouts types).map Access.request := by
  induction plan generalizing types with
  | value | stated | reference | external | struct => rfl
  | field span target name ih =>
    rw [accesses, List.map_append, ← ih]
    exact List.filterMap_append
  | expression span inner ih =>
    rw [accesses, ← ih]
    exact List.filterMap_append.trans (List.append_nil _)
  | procedure head body ih => exact ih _
  | binding head initial ih => exact ih types
  | combine rule first second ihFirst ihSecond =>
    rw [accesses, List.map_append, ← ihFirst, ← ihSecond]
    exact List.filterMap_append

theorem missing_lastRuns (plans : List Plan) (types : Types) :
    (lastRuns layouts plans types).flatMap Outcome.missing =
      (lastAccesses layouts plans types).flatMap Access.misnamed := by
  induction plans generalizing types with
  | nil => rfl
  | cons first rest ih =>
    rw [lastRuns, lastAccesses, List.flatMap_cons, List.flatMap_append, ih, lastRun, missing_run]

theorem findings_lastRuns (plans : List Plan) (types : Types) :
    ((lastRuns layouts plans types).flatMap Outcome.findings).filterMap
        (fun finding => finding.usage.request?) =
      (lastAccesses layouts plans types).map Access.request := by
  induction plans generalizing types with
  | nil => rfl
  | cons first rest ih =>
    rw [lastRuns, lastAccesses, List.flatMap_cons, List.filterMap_append, List.map_append, ih, lastRun,
      findings_run]

section Errors

variable {table : SymbolTable} {around : Environment} {types : Types} {error : ResolutionError}

/-- What a walk reports is about a name that is used or about the access of a field. -/
theorem about_of_mem_errors {plan : Plan} (reported : error ∈ plan.errors table layouts around types) :
    (∃ sighting ∈ plan.sightings around, error ∈ sighting.errors table) ∨
      ∃ access ∈ plan.accesses layouts types, access.Reports error := by
  have names {sightings : List Sighting} (reported : error ∈ nameErrors table sightings) :
      ∃ sighting ∈ sightings, error ∈ sighting.errors table :=
    List.mem_flatMap.mp reported
  -- each error is about a name that is seen where it is reported, or about an access in one of the parts
  induction plan generalizing around types with
  | value => cases reported
  | stated | external | struct => exact .inl (names reported)
  | reference span name symbol => exact .inl ⟨_, List.mem_singleton_self _, reported⟩
  | field span target name ih =>
    rcases List.mem_append.mp reported with old | own
    · exact (ih old).imp_right fun ⟨access, member, about⟩ => ⟨access, List.mem_append_left _ member, about⟩
    · refine .inr ⟨_, List.mem_append_right _ (List.mem_singleton_self _), ?_⟩
      -- nothing is reported about the access if the type of the target is not known
      rw [Outcome.accessErrors] at own
      cases found : (target.run layouts types).type with
      | none => rw [found] at own; cases own
      | some type => rw [found] at own; exact ⟨type, _, own⟩
  | expression span inner ih => exact ih reported
  | procedure head body ih =>
    rcases List.mem_append.mp reported with inHead | inBody
    · exact .inl ((names inHead).imp fun _ => And.imp_left (List.mem_append_left _))
    · exact (ih inBody).imp_left (Exists.imp fun _ => And.imp_left (List.mem_append_right _))
  | binding head initial ih =>
    rcases List.mem_append.mp reported with inHead | inInitial
    · exact .inl ((names inHead).imp fun _ => And.imp_left (List.mem_append_left _))
    · exact (ih inInitial).imp_left (Exists.imp fun _ => And.imp_left (List.mem_append_right _))
  | combine rule first second ihFirst ihSecond =>
    rcases List.mem_append.mp reported with inFirst | inSecond
    · exact (ihFirst inFirst).imp (Exists.imp fun _ => And.imp_left (List.mem_append_left _))
        (Exists.imp fun _ => And.imp_left (List.mem_append_left _))
    · exact (ihSecond inSecond).imp (Exists.imp fun _ => And.imp_left (List.mem_append_right _))
        (Exists.imp fun _ => And.imp_left (List.mem_append_right _))

theorem about_of_mem_lastErrors {plans : List Plan}
    (reported : error ∈ lastErrors table layouts around plans types) :
    (∃ sighting ∈ (sequence plans).sightings around, error ∈ sighting.errors table) ∨
      ∃ access ∈ lastAccesses layouts plans types, access.Reports error := by
  induction plans generalizing around types with
  | nil => cases reported
  | cons first rest ih =>
    rcases List.mem_append.mp reported with inFirst | later
    · exact (about_of_mem_errors inFirst).imp (Exists.imp fun _ => And.imp_left (List.mem_append_left _))
        (Exists.imp fun _ => And.imp_left (List.mem_append_left _))
    · exact (ih later).imp (Exists.imp fun _ => And.imp_left (List.mem_append_right _))
        (Exists.imp fun _ => And.imp_left (List.mem_append_right _))

end Errors

end Plan

end Cadence
