import Cadence.Proofs.Plan.Settling
import Cadence.Proofs.Resolution.Records
import Cadence.Proofs.Resolution.Unit

/-!
# The resolution of a unit runs the plans of its files

Every file is walked over until its plan settles, from the types that the files before it have left.
The errors that count and the types of the expressions are those of the last walk.
-/
namespace Cadence

open Resolving

/-- What a walk over a file has found in the end, told by the plan with all names bound, the place of the
file, and the types that the last run started from. -/
structure Walk.Finds (after : Walk) (table : SymbolTable) (around : Environment) (plan : Plan)
    (nodes : List Node) (types : Types) : Prop where
  plan_eq : Node.planAll nodes = plan
  types_eq : after.types = (plan.run (Types.layout table.lookupGlobal?) types).types
  deferred_eq : after.deferred = (plan.run (Types.layout table.lookupGlobal?) types).deferred
  errors_eq : after.errors = plan.errors table (Types.layout table.lookupGlobal?) around types
  findings_eq : (Node.expressionsAll nodes).map Expr.finding =
    (plan.run (Types.layout table.lookupGlobal?) types).findings

/-- What a walk over some files has found in the end, told by their plans with all names bound, what is
reported, and the last run of each. -/
structure FindsAll (plans : List Plan) (errors : List ResolutionError)
    (results : List (List Node × List ResolutionError)) (outcomes : List Outcome) : Prop where
  plans_eq : results.map (fun result => Node.planAll result.1) = plans
  errors_eq : results.flatMap Prod.snd = errors
  findings_eq : ((results.map Prod.fst).flatMap Node.expressionsAll).map Expr.finding =
    outcomes.flatMap Outcome.findings

theorem Walk.Finds.cons {after : Walk} {table : SymbolTable} {around : Environment} {plan : Plan}
    {plans : List Plan} {others : List ResolutionError} {nodes : List Node} {types : Types}
    {results : List (List Node × List ResolutionError)} {outcomes : List Outcome}
    (finds : after.Finds table around plan nodes types) (findsAll : FindsAll plans others results outcomes) :
    FindsAll (plan :: plans)
      (plan.errors table (Types.layout table.lookupGlobal?) around types ++ others)
      ((nodes, after.errors) :: results)
      (plan.run (Types.layout table.lookupGlobal?) types :: outcomes) where
  plans_eq := by rw [List.map_cons, finds.plan_eq, findsAll.plans_eq]
  errors_eq := by rw [List.flatMap_cons, finds.errors_eq, findsAll.errors_eq]
  findings_eq := by
    rw [List.map_cons, List.flatMap_cons, List.map_append, finds.findings_eq, findsAll.findings_eq,
      List.flatMap_cons]

namespace Resolving

variable {table : SymbolTable} {walk : Walk} {content declared later : List Declaration}
  {nodes : List Node} {types : Types}

theorem walk_finds (stands : walk.StandsAt table (.between content later))
    (inside : (Place.between content declared).IsIn table)
    (fits : (Place.between content declared).Fits (Node.declarationsAll nodes))
    (types : Node.AllTypesAll table.BindsIn nodes)
    (isOpen : ∀ sighting ∈ Node.sightingsAll (Place.between content declared).environment nodes,
      sighting.IsOpen) {plan : Plan}
    (bound : (Node.planAll nodes).bind (Place.between content declared).environment = plan) :
    (Resolving.walk (entriesOf declared).length nodes).Ends walk fun result after =>
      result.2 = after.deferred ∧
        after.Finds table (Place.between content declared).environment plan result.1 walk.types := by
  subst bound
  apply Ends.bind_modify
  refine (Node.resolveAll_records rfl ⟨stands_again stands inside, fits, types, isOpen⟩).bind ?_
  rintro nodes' after ⟨plan, ⟨known, deferred, errors⟩, _, findings⟩
  rw [plan] at known deferred errors findings
  refine .bind_get (.pure ⟨rfl, plan, known, ?_, errors, findings⟩)
  rw [deferred, Nat.zero_add]
  rfl

/-- A further walk is a run of the plan that the one before it has left. -/
theorem walk_again {expected : List Declaration} {plan : Plan}
    (inside : (Place.between content declared).IsIn table)
    (fits : (Place.between content declared).Fits expected)
    (steady : plan.bind (Place.between content declared).environment = plan)
    (passes : PassesFile table content declared expected nodes walk)
    (finds : walk.Finds table (Place.between content declared).environment plan nodes types) :
    (Resolving.walk (entriesOf declared).length nodes).Succeeds walk fun result after =>
      PassesFile table content declared expected result.1 after ∧ result.2 = after.deferred ∧
        after.Finds table (Place.between content declared).environment plan result.1 walk.types := by
  have declares := passes.declared_eq
  have isOpen := fun sighting member => (passes.right sighting member).isOpen
  have further := walk_succeeds passes.stands inside (declares ▸ fits) passes.types isOpen
  rw [declares] at further
  exact further.and (walk_finds passes.stands inside (declares ▸ fits) passes.types isOpen
    ((congrArg _ finds.plan_eq).trans steady))

/-- Further walks are runs of the plan that the first one left. -/
theorem settle_finds {expected : List Declaration} {plan : Plan}
    (inside : (Place.between content declared).IsIn table)
    (fits : (Place.between content declared).Fits expected)
    (steady : plan.bind (Place.between content declared).environment = plan)
    (deferred : Nat) (passes : PassesFile table content declared expected nodes walk)
    (same : deferred = walk.deferred)
    (finds : walk.Finds table (Place.between content declared).environment plan nodes types) :
    (settle (entriesOf declared).length nodes deferred).Ends walk fun result after =>
      after.Finds table (Place.between content declared).environment plan result
        (plan.lastTypes (Types.layout table.lookupGlobal?) types) := by
  have counted := same.trans finds.deferred_eq
  -- a further walk is made only if the last one left fewer references
  induction deferred using Nat.strongRecOn generalizing nodes walk types with
  | ind deferred ih =>
    rw [settle, Plan.lastTypes]
    simp only [← counted]
    split
    -- no reference was left open
    next => exact .pure finds
    next =>
      refine (walk_again inside fits steady passes finds).ends.bind ?_
      rintro ⟨nodes', fewer⟩ after ⟨again, rfl, found⟩
      rw [finds.types_eq] at found
      dsimp only
      rw [← found.deferred_eq]
      split
      next less => exact ih _ less again rfl found found.deferred_eq
      next => exact .pure found

theorem file_finds (plain : (Node.planAll nodes).AllWritten Ty.IsPlain)
    (stands : walk.StandsAt table (.between content declared))
    (fits : (Place.between content declared).Fits (Node.declarationsAll nodes))
    (types : Node.AllTypesAll table.BindsIn nodes)
    (isOpen : ∀ sighting ∈ Node.sightingsAll (Place.between content declared).environment nodes,
      sighting.IsOpen) :
    let around := (Place.between content declared).environment
    let plan := (Node.planAll nodes).bind around
    (file nodes).Ends walk fun result after => result.2 = after.errors ∧
      after.Finds table around plan result.1
        (plan.lastTypes (Types.layout table.lookupGlobal?) walk.types) := by
  apply Ends.bind_get
  rw [stands.position_eq]
  have passes := walk_succeeds stands stands.inside fits types isOpen
  refine (passes.ends.and (walk_finds stands stands.inside fits types isOpen rfl)).bind ?_
  rintro ⟨nodes', deferred⟩ middle ⟨passes, rfl, finds⟩
  refine (settle_finds stands.inside fits (Plan.bind_bind plain _) _ passes rfl finds).bind
    fun settled after known => ?_
  exact .bind_get (.pure ⟨rfl, known⟩)

theorem files_find {files : List (List Node)}
    (plain : ∀ nodes ∈ files, (Node.planAll nodes).AllWritten Ty.IsPlain)
    (stands : walk.StandsAt table (.between content declared))
    (fits : (Place.between content declared).Fits (files.flatMap Node.declarationsAll))
    (types : ∀ nodes ∈ files, Node.AllTypesAll table.BindsIn nodes)
    (isOpen : ∀ sighting ∈ fileSightings (Place.between content declared).environment files,
      sighting.IsOpen) :
    let around := (Place.between content declared).environment
    let plans := files.map Node.planAll
    let outcomes := Plan.lastRuns (Types.layout table.lookupGlobal?) (Plan.bindAll around plans)
      walk.types
    (files.mapM file).Ends walk fun results after =>
      Plan.SettleAll (Types.layout table.lookupGlobal?) (Plan.bindAll around plans) walk.types outcomes
          after.types ∧
        FindsAll (Plan.bindAll around plans)
          (Plan.lastErrors table (Types.layout table.lookupGlobal?) around (Plan.bindAll around plans) walk.types)
          results outcomes := by
  induction files generalizing walk declared with
  | nil => exact .pure ⟨.nil, rfl, rfl, rfl⟩
  | cons nodes rest ih =>
    simp only [List.mem_cons, forall_eq_or_imp] at plain
    have whole := awaits_files stands fits types isOpen
    -- the first file leaves the walk where the others expect it
    have first := whole.left
    have passes := file_succeeds first.stands first.fits first.types first.isOpen
    have finding := file_finds plain.1 first.stands first.fits first.types first.isOpen
    rw [List.mapM_cons]
    refine (passes.ends.and finding).bind ?_
    rintro ⟨nodes', _⟩ middle ⟨leaves, rfl, finds⟩
    have behind := leaves.awaits whole
    rw [Place.declare_between] at behind
    refine (ih plain.2 behind.stands behind.fits behind.types behind.isOpen).bind ?_
    rintro results after ⟨settle, findsAll⟩
    rw [← Place.declare_between, Place.environment_declare, ← Node.declarations_planAll,
      finds.types_eq] at settle findsAll
    refine .pure ⟨.cons (Plan.settles_lastRun _ _ _) settle, ?_⟩
    rw [List.map_cons, Plan.lastErrors_bindAll]
    exact finds.cons findsAll

end Resolving

/-- The plans of the files of a unit, one for each file. -/
def Registered.plans (registered : Registered) : List Plan := registered.files.map Node.planAll

/-- What surrounds the first file of a unit. -/
def Registered.environment (registered : Registered) : Environment := ⟨[], [], registered.declarations⟩

/-- What can be asked about the fields of values in a unit. -/
def Registered.layouts (registered : Registered) : Types → Ty → Layout :=
  Types.layout registered.table.lookupGlobal?

/-- What resolution finds in a registered unit, told by the last run of the plan of each file. -/
structure Resolved.Runs (resolved : Resolved) (registered : Registered) (outcomes : List Outcome) :
    Prop where
  outcomes_eq : outcomes = Plan.lastRuns registered.layouts
    (Plan.bindAll registered.environment registered.plans) registered.table.type?
  settle : Plan.SettleAll registered.layouts (Plan.bindAll registered.environment registered.plans)
    registered.table.type? outcomes resolved.table.type?
  plans_eq : resolved.files.map Node.planAll = Plan.bindAll registered.environment registered.plans
  errors_eq : resolved.errors = Plan.lastErrors registered.table registered.layouts registered.environment
    (Plan.bindAll registered.environment registered.plans) registered.table.type?
  misnamed_eq : resolved.errors.filterMap ResolutionError.misnaming? =
    (Plan.sequence registered.plans).misnamed registered.environment
  findings_eq : (resolved.files.flatMap Node.expressionsAll).map Expr.finding =
    outcomes.flatMap Outcome.findings

/-- The fields that are missing are those that were missing in the last runs. -/
theorem Resolved.Runs.missing_eq {resolved : Resolved} {registered : Registered} {outcomes : List Outcome}
    (runs : resolved.Runs registered outcomes) :
    resolved.errors.filterMap ResolutionError.missing? = outcomes.flatMap Outcome.missing := by
  rw [runs.errors_eq, Plan.missing_lastErrors, runs.outcomes_eq]

theorem Except.bind_eq_ok {α β ε : Type} {step : Except ε α} {next : α → β} {last : β}
    (run : (step >>= fun result => pure (next result)) = .ok last) :
    ∃ result, step = .ok result ∧ next result = last := by
  cases step with
  | error fault => cases run
  | ok result => exact ⟨result, rfl, Except.ok.inj run⟩

theorem Resolved.exists_runs {registered : Registered}
    (declares : registered.table.Declares registered.declarations)
    (tableTypes : registered.table.AllTypes registered.table.BindsIn)
    (fileTypes : ∀ nodes ∈ registered.files, Node.AllTypesAll registered.table.BindsIn nodes)
    (isOpen : ∀ sighting ∈ unitSightings registered.files, sighting.IsOpen)
    (plain : ∀ plan ∈ registered.plans, plan.AllWritten Ty.IsPlain) {resolved : Resolved}
    (run : ofRegistered registered = .ok resolved) :
    ∃ outcomes, resolved.Runs registered outcomes := by
  have stands := declares.stands_start tableTypes
  have fits : (Place.between registered.declarations []).Fits registered.declarations :=
    List.prefix_refl _
  have whole : Ends (do
        let files ← registered.files.mapM Resolving.file
        Resolving.finish
        return files) (.start registered.table) fun results after =>
      let outcomes := Plan.lastRuns registered.layouts
        (Plan.bindAll registered.environment registered.plans) registered.table.type?
      Plan.SettleAll registered.layouts
          (Plan.bindAll registered.environment registered.plans) registered.table.type? outcomes
            after.table.type? ∧
        FindsAll (Plan.bindAll registered.environment registered.plans)
          (Plan.lastErrors registered.table registered.layouts registered.environment
            (Plan.bindAll registered.environment registered.plans) registered.table.type?) results outcomes := by
    -- that the walk stays on track and what it finds are two lemmas about the same run
    have passes := files_succeed stands fits fileTypes isOpen
    have finding := files_find (List.forall_mem_map.mp plain) stands fits fileTypes isOpen
    refine (passes.ends.and finding).bind ?_
    rintro results after ⟨leaves, known⟩
    refine (declares.finish_succeeds leaves.stands).ends.bind ?_
    rintro _ _ rfl
    exact .pure known
  obtain ⟨⟨results, after⟩, ran, rfl⟩ := Except.bind_eq_ok run
  obtain ⟨settle, plans, errors, findings⟩ := whole _ _ ran
  refine ⟨_, rfl, settle, ?_, errors, ?_, findings⟩
  · rw [List.map_map]
    exact plans
  · -- binding the names of a plan does not change which of them are misused
    exact (congrArg _ errors).trans ((Plan.misnaming_lastErrors _ _ _).trans (Plan.misnamed_bindAll plain _))

end Cadence
