import Cadence.Proofs.Plan.Registration
import Cadence.Proofs.Plan.Sightings
import Cadence.Proofs.Resolution.Runs

/-!
# How often a file is walked over

Each walk over a file but the last one leaves fewer references to symbols of unknown type than the walk
before it. The first one leaves at most all references in the file.
-/
namespace Cadence

open Resolving

namespace Resolving

/-- Walk over a file as `settle` does, and count the walks. -/
def settleCounting (position : Nat) (nodes : List Node) (deferred : Nat) :
    Resolving (List Node × Nat) :=
  if deferred = 0 then return (nodes, 0)
  else do
    let (nodes, fewer) ← walk position nodes
    if fewer < deferred then
      let (nodes, further) ← settleCounting position nodes fewer
      return (nodes, further + 1)
    else return (nodes, 1)
  termination_by deferred

/-- Resolve a file as `file` does, and count the walks. -/
def fileCounting (nodes : List Node) : Resolving ((List Node × List ResolutionError) × Nat) := do
  let position := (← get).position
  let (nodes, deferred) ← walk position nodes
  let (nodes, further) ← settleCounting position nodes deferred
  return ((nodes, (← get).errors), further + 1)

/-- To count the walks makes no other difference. -/
theorem fst_settleCounting (position : Nat) (nodes : List Node) (deferred : Nat) :
    Prod.fst <$> settleCounting position nodes deferred = settle position nodes deferred := by
  induction deferred using Nat.strongRecOn generalizing nodes with
  | ind deferred ih =>
    rw [settleCounting, settle]
    split
    next => rw [map_pure]
    next =>
      rw [map_bind]
      refine bind_congr fun result => ?_
      dsimp only
      split
      next less =>
        rw [← ih _ less, map_bind, ← bind_pure_comp]
        rfl
      next => rw [map_pure]

theorem fst_fileCounting (nodes : List Node) : Prod.fst <$> fileCounting nodes = file nodes := by
  rw [fileCounting, file, map_bind]
  refine bind_congr fun start => ?_
  rw [map_bind]
  refine bind_congr fun result => ?_
  dsimp only
  rw [← fst_settleCounting, map_bind, bind_map_left]
  rfl

/-- What comes out of a step is what becomes of what comes out of it. -/
theorem exists_of_map {α β : Type} {step : Resolving α} {change : α → β} {walk after : Walk}
    {result : β} (run : (change <$> step).run walk = .ok (result, after)) :
    ∃ origin, step.run walk = .ok (origin, after) ∧ change origin = result := by
  rw [StateT.run_map] at run
  cases ran : step.run walk with
  | error fault =>
    rw [ran] at run
    cases run
  | ok known =>
    rw [ran] at run
    obtain ⟨rfl, rfl⟩ := Prod.mk.inj (Except.ok.inj run)
    exact ⟨known.1, rfl, rfl⟩

/-- There are no more further walks than deferred references. -/
theorem settleCounting_ends {walk : Walk} (position : Nat) (nodes : List Node) (deferred : Nat) :
    (settleCounting position nodes deferred).Ends walk fun result _ => result.2 ≤ deferred := by
  -- each walk that is followed by another one takes at least one reference away
  induction deferred using Nat.strongRecOn generalizing nodes walk with
  | ind deferred ih =>
    rw [settleCounting]
    split
    next => exact .pure (Nat.zero_le _)
    next more =>
      refine .behind fun result middle => ?_
      dsimp only
      split
      next less =>
        refine (ih _ less _).bind fun settled _ bound => .pure ?_
        exact (Nat.succ_le_succ bound).trans less
      next => exact .pure (Nat.one_le_iff_ne_zero.mpr more)

end Resolving

namespace Plan

/-- The number of references in a plan. -/
def referenceCount : Plan → Nat
  | value _ | stated _ | external _ | struct _ => 0
  | reference _ _ _ => 1
  | .field _ target _ => target.referenceCount
  | expression _ inner => inner.referenceCount
  | procedure _ body => body.referenceCount
  | binding _ initial => initial.referenceCount
  | combine _ first second => first.referenceCount + second.referenceCount

/-- No more references are deferred than there are. -/
theorem deferred_le_referenceCount (plan : Plan) (layouts : Types → Ty → Layout) (types : Types) :
    (plan.run layouts types).deferred ≤ plan.referenceCount := by
  induction plan generalizing types with
  | value | stated | external | struct => exact Nat.le_refl 0
  | reference => exact List.countP_le_length
  | field span target name ih => simpa only [run, Outcome.deferred_access, referenceCount] using ih types
  | expression span inner ih => simpa only [run, Outcome.deferred_finding, referenceCount] using ih types
  | procedure head body ih => exact ih _
  | binding head initial ih => exact ih types
  | combine rule first second ihFirst ihSecond =>
    simpa only [run, Outcome.deferred_combine, referenceCount] using Nat.add_le_add (ihFirst types) (ihSecond _)

@[simp]
theorem referenceCount_bind (plan : Plan) (around : Environment) :
    (plan.bind around).referenceCount = plan.referenceCount := by
  induction plan generalizing around with
  | value | stated | reference | external | struct => rfl
  | field span target name ih => exact ih around
  | expression span inner ih => exact ih around
  | procedure head body ih => exact ih _
  | binding head initial ih => exact ih around
  | combine rule first second ihFirst ihSecond => exact congrArg₂ _ (ihFirst around) (ihSecond _)

@[simp]
theorem referenceCount_number (plan : Plan) (start : Nat) :
    (plan.number start).referenceCount = plan.referenceCount := by
  induction plan generalizing start with
  | value | stated | reference | external | struct => rfl
  | field span target name ih => exact ih start
  | expression span inner ih => exact ih start
  | procedure head body ih => exact ih _
  | binding head initial ih => exact ih start
  | combine rule first second ihFirst ihSecond => exact congrArg₂ _ (ihFirst start) (ihSecond _)

theorem length_references (plan : Plan) (around : Environment) :
    ((plan.sightings around).filterMap Sighting.reference?).length = plan.referenceCount := by
  induction plan generalizing around with
  | value | reference => rfl
  | stated type => rw [sightings, type.references_sightings, List.length_nil, referenceCount]
  | field span target name ih => exact ih around
  | expression span inner ih => exact ih around
  | external head => rw [sightings, head.references_sightings, List.length_nil, referenceCount]
  | procedure head body ih =>
    rw [sightings, List.filterMap_append, head.references_sightings, List.nil_append, ih, referenceCount]
  | struct declared =>
    rw [sightings, Member.references_sightings, List.length_nil, referenceCount]
  | binding head initial ih =>
    rw [sightings, List.filterMap_append, Ty.references_annotationSightings, List.nil_append, ih,
      referenceCount]
  | combine rule first second ihFirst ihSecond =>
    rw [sightings, List.filterMap_append, List.length_append, ihFirst, ihSecond, referenceCount]

end Plan

/-- The references in some nodes. -/
def Node.references (nodes : List Node) : List Expr :=
  (Node.expressionsAll nodes).filter fun expression => expression.reference?.isSome

theorem Node.length_references (nodes : List Node) :
    (Node.references nodes).length = (Node.planAll nodes).referenceCount := by
  rw [← Plan.length_references _ ⟨[], [], []⟩, Node.sightings_planAll, Node.references_sightingsAll,
    List.length_filterMap_eq_countP, references, List.countP_eq_length_filter]

namespace Resolving

variable {table : SymbolTable} {walk : Walk} {content declared : List Declaration} {nodes : List Node}

/-- A file is walked over at most as often as there are references in it, and once more. -/
theorem fileCounting_ends (stands : walk.StandsAt table (.between content declared))
    (fits : (Place.between content declared).Fits (Node.declarationsAll nodes))
    (types : Node.AllTypesAll table.BindsIn nodes)
    (isOpen : ∀ sighting ∈ Node.sightingsAll (Place.between content declared).environment nodes,
      sighting.IsOpen) :
    (fileCounting nodes).Ends walk fun result _ => result.2 ≤ (Node.references nodes).length + 1 := by
  apply Ends.bind_get
  rw [stands.position_eq]
  refine (walk_finds stands stands.inside fits types isOpen rfl).bind ?_
  rintro ⟨nodes', deferred⟩ middle ⟨rfl, finds⟩
  refine (settleCounting_ends _ nodes' middle.deferred).bind fun settled after bound => ?_
  refine .bind_get (.pure (Nat.succ_le_succ (bound.trans ?_)))
  rw [finds.deferred_eq, Node.length_references, ← Plan.referenceCount_bind (Node.planAll nodes)]
  exact Plan.deferred_le_referenceCount _ _ _

end Resolving

end Cadence
