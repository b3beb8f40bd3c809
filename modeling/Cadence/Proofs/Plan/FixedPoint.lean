import Cadence.Proofs.Plan.Completion
import Cadence.Proofs.Plan.Errors

/-!
# Another walk behind the last one

With all types of declarations completed from the start, the walks over a tree end where another one
comes to the same. The walks that are really made find out and report the same as those, apart from what
is recorded for the names in types, and so does another walk behind the last one.
-/
namespace Cadence

open Source (Span)

variable {globals : String → Option SymbolIndex}
  {change : Identifier → Option SymbolIndex → Option SymbolIndex}

/-- What is recorded for the names in a type cannot be seen when it is written out. -/
theorem Ty.display_mapNames (type : Ty) : (type.mapNames change).display = type.display := by
  induction type using Ty.byParts with
  | builtin | struct | named => rfl
  | pointer target ih => simp only [mapNames, display, ih]
  | procedure parameters isVariadic result ihParameters ihResult =>
    have inner : displayParameters (Ty.mapParameterNames change parameters) = displayParameters parameters := by
      induction parameters with
      | nil => rfl
      | cons first rest ih =>
        obtain ⟨own, others⟩ := List.forall_mem_cons.mp ihParameters
        simp only [mapParameterNames, displayParameters, own, ih others]
    have void : (result.mapNames change).isVoid = result.isVoid := by cases result <;> rfl
    simp only [mapNames, display, inner, void, ihResult]

/-- The same error about a changed type. -/
def ResolutionError.mapType (change : Ty → Ty) : ResolutionError → ResolutionError
  | undefinedName name lookalike => undefinedName name lookalike
  | notAType name declaration => notAType name declaration
  | noFields field target type => noFields field target (change type)
  | undefinedField struct field lookalike => undefinedField struct field lookalike

theorem ResolutionError.diagnostic_mapType (error : ResolutionError) :
    (error.mapType (Ty.mapNames change)).diagnostic = error.diagnostic := by
  cases error with
  | undefinedName | notAType | undefinedField => rfl
  | noFields field target type => simp only [mapType, diagnostic, Ty.display_mapNames]

/-- Errors about names are not about types. -/
theorem mapType_nameErrors (change : Ty → Ty) (table : SymbolTable) (sightings : List Sighting) :
    (nameErrors table sightings).map (ResolutionError.mapType change) = nameErrors table sightings := by
  refine (List.map_congr_left fun error member => ?_).trans (List.map_id _)
  obtain ⟨sighting, _, reported⟩ := List.mem_flatMap.mp member
  have missing : error.missing? = none :=
    List.filterMap_eq_nil_iff.mp (missing_nameErrors sightings) error member
  cases error with
  | noFields => cases missing
  | undefinedName | notAType | undefinedField => rfl

theorem mapType_referenceErrors (change : Ty → Ty) (around : Environment) (name : Identifier) :
    (around.referenceErrors name).map (ResolutionError.mapType change) = around.referenceErrors name := by
  rw [Environment.referenceErrors]
  split <;> rfl

theorem Layout.errors_mapNames (layout : Layout) (type : Ty) (target : Span) (field : Identifier) :
    (layout.mapNames change).errors (type.mapNames change) target field =
      (layout.errors type target field).map (ResolutionError.mapType (Ty.mapNames change)) := by
  cases layout with
  | struct name fields =>
    have names : (Ty.mapFieldNames change fields).map Prod.fst = fields.map Prod.fst := by
      rw [Ty.mapFieldNames_eq, List.map_map]
      rfl
    simp only [mapNames, errors, find_mapFieldNames, Option.isSome_map, names]
    split <;> rfl
  | notAStruct | unknown => rfl

namespace Plan

variable {plan : Plan} {known : Set SymbolIndex} {written types completed : Types} {table : SymbolTable}

namespace IsCompletable

/-- A walk with completed types reports the same, about completed types. -/
theorem errors_completed (completable : IsCompletable globals written known plan types completed)
    (around : Environment) :
    plan.errors table (fun _ => written.layout globals) around completed =
      (plan.errors table (Types.layout globals) around types).map
        (ResolutionError.mapType (Ty.complete globals)) := by
  induction plan generalizing known types completed around with
  | value => rfl
  | stated | external | struct => exact (mapType_nameErrors _ _ _).symm
  | reference => exact (mapType_referenceErrors _ _ _).symm
  | field span target name ih =>
    have inTarget : IsCompletable globals written known target types completed := { completable with }
    have inner := inTarget.run_completed
    -- the fields that are looked up are those that are written down for the struct
    have access : (target.run (fun _ => written.layout globals) completed).accessErrors
        (fun _ => written.layout globals) target.span name =
          ((target.run (Types.layout globals) types).accessErrors (Types.layout globals) target.span name).map
            (ResolutionError.mapType (Ty.complete globals)) := by
      rw [Outcome.accessErrors, Outcome.accessErrors, inner.type]
      cases targetType : (target.run (Types.layout globals) types).type with
      | none => rfl
      | some type =>
        simp only [Option.map_some, Option.elim_some, inTarget.layout inner type targetType]
        exact Layout.errors_mapNames _ type target.span name
    rw [errors, errors, List.map_append, ih inTarget, access]
  | expression span inner ih => exact ih { completable with } around
  | procedure head body ih =>
    rw [errors, errors, List.map_append, mapType_nameErrors, ih completable.body]
  | binding head initial ih =>
    rw [errors, errors, List.map_append, mapType_nameErrors, ih completable.initial]
  | combine rule first second ihFirst ihSecond =>
    have left := completable.first.run_completed
    rw [errors, errors, List.map_append, ihFirst completable.first, ihSecond (completable.second left)]

end IsCompletable

/-- Another walk finds out and reports the same, apart from what is recorded for the names in types. -/
structure ComesToTheSame (layouts : Types → Ty → Layout) (table : SymbolTable) (around : Environment)
    (plan : Plan) (types again : Types) : Prop where
  types_eq : ∀ index, ((plan.run layouts again).types index).map Ty.bare =
    ((plan.run layouts types).types index).map Ty.bare
  findings_eq : (plan.run layouts again).findings.map (Finding.map id Ty.bare) =
    (plan.run layouts types).findings.map (Finding.map id Ty.bare)
  errors_eq : (plan.errors table layouts around again).map ResolutionError.diagnostic =
    (plan.errors table layouts around types).map ResolutionError.diagnostic

/-- Behind the last walk over a tree, another one comes to the same. -/
theorem IsCompletable.comesToTheSame
    (completable : IsCompletable globals written known plan types completed)
    (grow : completed.Grow (plan.step (fun _ => written.layout globals) completed)) (table : SymbolTable)
    (around : Environment) :
    let before := plan.lastTypes (Types.layout globals) types
    plan.ComesToTheSame (Types.layout globals) table around before
      (plan.run (Types.layout globals) before).types := by
  obtain ⟨count, same, ends⟩ := exists_lastTypes (Types.layout globals) plan types
  have behind : (plan.run (Types.layout globals) ((plan.step (Types.layout globals))^[count] types)).types =
      (plan.step (Types.layout globals))^[count + 1] types :=
    (Function.iterate_succ_apply' (plan.step (Types.layout globals)) count types).symm
  simp only [same, behind]
  -- with completed types, another walk comes to the very same
  have settled : plan.run (fun _ => written.layout globals)
      ((plan.step fun _ => written.layout globals)^[count + 1] completed) =
        plan.run (fun _ => written.layout globals)
          ((plan.step fun _ => written.layout globals)^[count] completed) := by
    rw [Function.iterate_succ_apply']
    exact Settles.run_eq ⟨count, rfl, completable.endsAt ends⟩ grow
  have last := completable.walks count
  have next := completable.walks (count + 1)
  rw [settled] at next
  have complete : Ty.bare ∘ Ty.complete globals = Ty.bare := funext fun type => Ty.bare_mapNames type
  refine ⟨fun index => ?_, ?_, ?_⟩
  · by_cases declared : index ∈ plan.symbols
    · have inside : index ∈ knownBehind known plan.entries := .inr declared
      have both := congrArg (Option.map Ty.bare)
        ((next.types index inside).symm.trans (last.types index inside))
      rwa [Option.map_map, Option.map_map, complete] at both
    · rw [plan.run_types_of_notMem declared, behind]
  · have both := congrArg (List.map (Finding.map id Ty.bare)) (next.findings.symm.trans last.findings)
    rwa [List.map_map, List.map_map, Finding.map_comp_map, complete] at both
  · have diagnostics : ResolutionError.diagnostic ∘ ResolutionError.mapType (Ty.complete globals) =
        ResolutionError.diagnostic := funext ResolutionError.diagnostic_mapType
    obtain ⟨_, _, _, here⟩ := completable.iterate count
    obtain ⟨_, _, _, there⟩ := completable.iterate (count + 1)
    have reported : plan.errors table _ around _ = plan.errors table _ around _ :=
      plan.errors_congr around (congrArg Outcome.findings settled)
    rw [here.errors_completed, there.errors_completed] at reported
    have both := congrArg (List.map ResolutionError.diagnostic) reported
    rwa [List.map_map, List.map_map, diagnostics] at both

end Plan

end Cadence
