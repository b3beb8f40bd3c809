import Cadence.Proofs.Plan.Order
import Cadence.Proofs.Plan.Solutions
import Cadence.Proofs.Resolution.Settled

/-!
# Units in which each name stands for one declaration

If the names of the global declarations of a unit are distinct, a name that was not looked up yet
stands for the same struct wherever it is read. Resolution then finds out what it would find out with
the names of all types that are written down looked up in advance, and what the fields of values are
is fixed.
-/
namespace Cadence

/-- The names that global symbols can be referred to by are those of the global declarations. -/
theorem SymbolTable.Declares.names_globals {table : SymbolTable} {declared : List Declaration}
    (declares : table.Declares declared) :
    table.globals.filterMap table.name? = declared.map Declaration.name := by
  rw [declares.globals_eq]
  exact filterMap_name?_entriesOf declares.placed

namespace Plan

/-- Completed walks miss the same fields. -/
theorem missing_of_completed {globals : String → Option SymbolIndex} {outcomes outcomes' : List Outcome}
    (finds : List.Forall₂ (FindsCompleted globals) outcomes outcomes') :
    outcomes'.flatMap Outcome.missing = outcomes.flatMap Outcome.missing := by
  induction finds with
  | nil => rfl
  | cons first _ ih => rw [List.flatMap_cons, List.flatMap_cons, first.2, ih]

end Plan

namespace Registered

/-- No two global symbols have the same name. Scopes have none. -/
def HasDistinctGlobals (registered : Registered) : Prop :=
  (registered.table.globals.filterMap registered.table.name?).Nodup

theorem HasDistinctGlobals.names {files : List (List Node)} (distinct : (ofFiles files).HasDistinctGlobals) :
    HaveDistinctNames (ofFiles files).declarations := by
  rwa [HasDistinctGlobals, (declares_declarations files).names_globals] at distinct

/-- What the fields of values are, with all names looked up. -/
def layout (registered : Registered) : Ty → Layout :=
  registered.written.layout registered.table.lookupGlobal?

/-- The plans of the files of a unit with their names bound. -/
def boundPlans (registered : Registered) : List Plan :=
  Plan.bindAll registered.environment registered.plans

variable {files : List (List Node)}

theorem isFresh_boundPlans : ∀ plan ∈ (ofFiles files).boundPlans, plan.IsFresh (ofFiles files).written := by
  intro plan member entry declared
  refine isFresh_boundPlan files entry ?_
  rw [boundPlan_eq, Plan.entries_sequence]
  exact List.mem_flatMap.mpr ⟨plan, member, declared⟩

variable (formed : WellFormedTrees files) (distinct : HaveDistinctNames (ofFiles files).declarations)
  (structs : (ofFiles files).plan.DenotesStructs (ofFiles files).environment)

include distinct in
/-- A name that is used between global declarations stands for the same one everywhere. -/
theorem steady_environment {made : List Declaration} (initial : made <+: (ofFiles files).declarations) :
    ((ofFiles files).environment.declare made).headingOf? = (ofFiles files).environment.headingOf? := by
  have stays : (ofFiles files).environment.StaysOrderless (ofFiles files).declarations :=
    @HaveDistinctNames.staysOrderless_before [] _ distinct
  funext name
  rw [Environment.headingOf?, Environment.headingOf?, (stays _ initial).denoted?_eq, stays.start.denoted?_eq]
  rfl

include formed distinct structs

/-- What is completed in the types of global declarations is what is looked up in them later. -/
theorem complete_start :
    Types.CompletedBy (ofFiles files).table.type? (ofFiles files).table.lookupGlobal?
      (ofFiles files).globalSymbols (ofFiles files).written ∧
    Types.Grounded (ofFiles files).table.type? (ofFiles files).globalSymbols
      ((ofFiles files).written.MeansStruct (ofFiles files).table.lookupGlobal?) := by
  have surface := (ofFiles files).plan.surface_complete (isWritten_plan formed)
    (fun made initial => steady_environment distinct (declarations_plan (ofFiles files) ▸ initial)) structs
  rw [lookupGlobal?_eq (declares_declarations files)]
  -- what is known at first about a global declaration is what is written at its surface
  have each {index : SymbolIndex} (inside : index ∈ (ofFiles files).globalSymbols) :
      ∃ type, (index, type) ∈ (ofFiles files).plan.surface ∧ (ofFiles files).table.type? index = type := by
    obtain ⟨declaration, present, own⟩ := inside
    rw [← declarations_plan] at present
    obtain ⟨type, declared⟩ := Plan.exists_mem_surface _ present own
    exact ⟨type, declared, isFresh_plan files _ (Plan.surface_subset_entries _ declared)⟩
  constructor
  · intro index inside
    obtain ⟨type, declared, known⟩ := each inside
    rw [known]
    exact isFresh_boundPlan files _ (Plan.surface_subset_entries _ (surface _ declared).1)
  · intro index inside type found
    obtain ⟨_, declared, known⟩ := each inside
    refine ((surface _ declared).2 type (known ▸ found)).mono ?_
    rintro path _ ⟨rfl, heading, denoted, struct⟩
    obtain ⟨declaration, present, rfl⟩ := Environment.exists_mem_of_headingOf? denoted
    refine ⟨nofun, ?_⟩
    -- a type that was parsed records no symbols, so each of its names is looked up among the globals
    have chosen : (none : Option SymbolIndex).or ((ofFiles files).environment.symbolOf? path.value) =
        declaration.symbol? := by
      rw [Option.none_or, Environment.symbolOf?, denoted]
      rfl
    rw [Types.MeansStruct, chosen]
    exact (isKnown_environment declaration present).2 struct

/-- Resolution finds out what it would find out with all names looked up in advance. -/
theorem exists_completed {resolved : Resolved} {outcomes : List Outcome}
    (runs : resolved.Runs (ofFiles files) outcomes) :
    ∃ outcomes' final', Plan.SettleAll (fun _ => (ofFiles files).layout) (ofFiles files).boundPlans
        (ofFiles files).written outcomes' final' ∧
      List.Forall₂ (Plan.FindsCompleted (ofFiles files).table.lookupGlobal?) outcomes outcomes' ∧
      Types.CompletedBy resolved.table.type? (ofFiles files).table.lookupGlobal?
        (knownBehind (ofFiles files).globalSymbols (ofFiles files).boundPlan.entries) final' := by
  obtain ⟨completes, sound⟩ := complete_start formed distinct structs
  have fits := wellScoped_boundPlan formed structs
  rw [boundPlan_eq] at fits ⊢
  exact runs.settle.exists_completed fits isFresh_boundPlans (.refl _)
    (mem_globalSymbols_of_lookup (declares_declarations files)) sound completes

end Registered

/-- A unit has no errors if no name is misused in it and there is a solution. -/
theorem Resolved.Runs.errors_eq_nil_of_solution {files : List (List Node)} {resolved : Resolved}
    {outcomes : List Outcome} (runs : resolved.Runs (Registered.ofFiles files) outcomes)
    (formed : WellFormedTrees files)
    (distinct : HaveDistinctNames (Registered.ofFiles files).declarations) {types : Types}
    (right : (Registered.ofFiles files).plan.misnamed (Registered.ofFiles files).environment = [])
    (solution : Plan.IsSolution (Registered.ofFiles files).layout (Registered.ofFiles files).boundPlans
      (Registered.ofFiles files).written types) : resolved.errors = [] := by
  obtain ⟨outcomes', final', settle, finds, _⟩ :=
    Registered.exists_completed formed distinct (Plan.denotesStructs_of_misnamed right) runs
  refine runs.errors_eq_nil_iff.mpr ⟨right, ?_⟩
  rw [← Plan.missing_of_completed finds]
  exact (solution.bounds settle).2

end Cadence
