import Cadence.Proofs.Plan.Registration

/-!
# How a unit settles

The plan of a unit as a whole is numbered, and what is written down in it is recorded in the table of
the unit, when the unit is registered. Resolution binds the names in it and runs it file by file until
each file is settled.
-/
namespace Cadence

open Source (File)

/-- Nothing but what was written in the source files stands in the trees of a unit. -/
def WellFormedTrees (files : List (List Node)) : Prop :=
  ∀ nodes ∈ files, ∀ node ∈ nodes, node.IsWellFormed

theorem WellFormedTrees.unbound {files : List (List Node)} (formed : WellFormedTrees files) :
    ∀ nodes ∈ files, Node.AllTypesAll Ty.IsUnbound nodes := fun nodes member =>
  (Node.allTypesAll_iff _ _).mpr fun node present =>
    (formed nodes member node present).allTypes.mono fun _ => Ty.IsWritten.unbound

theorem wellFormed_treesOf (files : List File) : WellFormedTrees (treesOf files) := by
  intro nodes member
  obtain ⟨file, _, rfl⟩ := List.mem_map.mp member
  exact Parsed.isWellFormed_nodes file _

namespace Registered

/-- The plan of a unit as a whole. -/
def plan (registered : Registered) : Plan := .sequence registered.plans

/-- The plan of a unit with its names bound. -/
def boundPlan (registered : Registered) : Plan := registered.plan.bind registered.environment

/-- The types that are written down in a unit, with their names bound. -/
def written (registered : Registered) : Types :=
  Types.record (fun _ => none) registered.boundPlan.entries

/-- The symbols of the declarations in the global scope. -/
def globalSymbols (registered : Registered) : Set SymbolIndex :=
  {index | ∃ declaration ∈ registered.declarations, declaration.symbol? = some index}

theorem declarations_plan (registered : Registered) :
    registered.plan.declarations = registered.declarations := by
  rw [plan, plans, declarations]
  induction registered.files with
  | nil => rfl
  | cons first rest ih =>
    rw [List.map_cons, Plan.sequence, Plan.declarations, ih, Node.declarations_planAll, List.flatMap_cons]

theorem boundPlan_eq (registered : Registered) :
    registered.boundPlan = .sequence (Plan.bindAll registered.environment registered.plans) :=
  Plan.bind_sequence _ _

section OfFiles

variable (files : List (List Node))

theorem plan_ofFiles : (ofFiles files).plan = (Plan.sequence (files.map Node.planAll)).number 1 := by
  rw [plan, plans_ofFiles, Plan.number_sequence]

theorem isPlaced_plan : (ofFiles files).plan.IsPlaced := plan_ofFiles files ▸ Plan.isPlaced_number _

theorem nodup_symbols_plan : (ofFiles files).plan.symbols.Nodup :=
  plan_ofFiles files ▸ Plan.nodup_symbols_number _

theorem nodup_symbols_boundPlan : (ofFiles files).boundPlan.symbols.Nodup := by
  rw [boundPlan, Plan.symbols_bind]
  exact nodup_symbols_plan files

theorem nodup_symbols_bindAll :
    ((Plan.bindAll (ofFiles files).environment (ofFiles files).plans).flatMap Plan.symbols).Nodup := by
  rw [← Plan.symbols_sequence, ← boundPlan_eq]
  exact nodup_symbols_boundPlan files

theorem isFresh_plan : (ofFiles files).plan.IsFresh (ofFiles files).table.type? := by
  intro entry member
  rw [types_ofFiles, ← Plan.entries_sequence]
  exact Types.record_of_nodup _ (nodup_symbols_plan files) member

/-- Nothing is recorded for symbols that are not declared. -/
theorem type?_of_notMem {index : SymbolIndex} (other : index ∉ (ofFiles files).plan.symbols) :
    (ofFiles files).table.type? index = none := by
  rw [types_ofFiles, ← Plan.entries_sequence]
  exact Types.record_of_notMem other

theorem isFresh_boundPlan : (ofFiles files).boundPlan.IsFresh (ofFiles files).written :=
  fun _ member => Types.record_of_nodup _ (nodup_symbols_boundPlan files) member

variable {files}

theorem isBlank_plans (formed : WellFormedTrees files) :
    (Plan.sequence (files.map Node.planAll)).IsBlank := by
  induction files with
  | nil => exact Plan.isBlank_nothing
  | cons first rest ih =>
    obtain ⟨own, others⟩ := List.forall_mem_cons.mp formed
    exact ⟨Node.isBlank_all ((Node.isWellFormedAll_iff _).mpr own), ih others⟩

theorem isWritten_plan (formed : WellFormedTrees files) : (ofFiles files).plan.AllWritten Ty.IsWritten :=
  plan_ofFiles files ▸ (isBlank_plans formed).allWritten.number

theorem isPlain_plan (formed : WellFormedTrees files) : (ofFiles files).plan.AllWritten Ty.IsPlain :=
  (isWritten_plan formed).mono fun _ => Ty.IsWritten.plain

/-- Every declaration in the global scope is known. -/
theorem isKnown_environment :
    (ofFiles files).environment.IsKnown (ofFiles files).globalSymbols (ofFiles files).written := by
  intro declaration member
  have present : declaration ∈ (ofFiles files).declarations := by
    simpa [environment, Environment.declarations] using member
  refine ⟨fun index own => ⟨declaration, present, own⟩, ?_⟩
  rw [← declarations_plan, ← Plan.declarations_bind (ofFiles files).environment] at present
  exact Plan.hasStruct_of_declarations _ ((Plan.isPlaced_bind _ _).mpr (isPlaced_plan files))
    (isFresh_boundPlan files) present

/-- If the names that stand for types denote structs, nothing in a unit gets hold of what is not known. -/
theorem wellScoped_boundPlan (formed : WellFormedTrees files)
    (structs : (ofFiles files).plan.DenotesStructs (ofFiles files).environment) :
    (ofFiles files).boundPlan.WellScoped (ofFiles files).written.NamesStruct (ofFiles files).globalSymbols :=
  Plan.wellScoped_bind _ (isPlain_plan formed) (isPlaced_plan files) (isFresh_boundPlan files) structs
    isKnown_environment

end OfFiles

/-- The table finds what a name denotes in front of the first file. -/
theorem lookupGlobal?_eq {registered : Registered}
    (declares : registered.table.Declares registered.declarations) :
    registered.table.lookupGlobal? = registered.environment.symbolOf? := by
  funext name
  have denotes := SymbolTable.Matches.find_first declares.placed name
  rw [← declares.globals_eq] at denotes
  have same : _ = registered.environment.symbolOf? name := Resolving.symbolOf?_of_matches denotes
  exact same

theorem mem_globalSymbols_of_lookup {registered : Registered}
    (declares : registered.table.Declares registered.declarations) :
    ∀ name, ∀ index ∈ registered.table.lookupGlobal? name, index ∈ registered.globalSymbols := by
  intro name index bound
  rw [lookupGlobal?_eq declares] at bound
  obtain ⟨heading, found, own⟩ := Option.bind_eq_some_iff.mp bound
  obtain ⟨declaration, present, rfl⟩ := Environment.exists_mem_of_headingOf? found
  exact ⟨declaration, by simpa [environment, Environment.declarations] using present, own⟩

end Registered

/-- An error is about a name that is misused or about a field that is not there. -/
theorem ResolutionError.eq_nil_iff {errors : List ResolutionError} :
    errors = [] ↔ errors.filterMap misnaming? = [] ∧ errors.filterMap missing? = [] := by
  cases errors with
  | nil => simp
  | cons first rest => cases first <;> simp [misnaming?, missing?]

/-- Every unit is resolved, and what is found in it is what its plan comes to. -/
theorem Resolved.exists_settled {files : List (List Node)} (formed : WellFormedTrees files) :
    ∃ resolved, ofRegistered (Registered.ofFiles files) = .ok resolved ∧
      resolved.Completes (Registered.ofFiles files) ∧
      ∃ outcomes, resolved.Runs (Registered.ofFiles files) outcomes := by
  obtain ⟨tableTypes, fileTypes, isOpen⟩ := Registered.binds_ofFiles formed.unbound
  obtain ⟨resolved, run, completes⟩ :=
    exists_completes (Registered.declares_declarations files) tableTypes fileTypes isOpen
  refine ⟨resolved, run, completes, exists_runs (Registered.declares_declarations files) tableTypes
    fileTypes isOpen ?_ run⟩
  exact Plan.AllWritten.of_sequence (Registered.isPlain_plan formed)

namespace Resolved.Runs

variable {files : List (List Node)} {resolved : Resolved} {outcomes : List Outcome}
  (runs : resolved.Runs (Registered.ofFiles files) outcomes)
include runs

/-- What is written down for a symbol is its type in the end. -/
theorem type?_of_written {index : SymbolIndex} {type : Ty}
    (written : (index, some type) ∈ (Registered.ofFiles files).boundPlan.entries) :
    resolved.table.type? index = some type := by
  rw [Registered.boundPlan_eq, Plan.entries_sequence] at written
  exact runs.settle.types_of_written (Registered.nodup_symbols_bindAll files) written

theorem written_grow : (Registered.ofFiles files).written.Grow resolved.table.type? := by
  intro index type known
  by_cases declared : index ∈ (Registered.ofFiles files).boundPlan.entries.map Prod.fst
  · have entry : (index, (Registered.ofFiles files).written index) ∈ _ := Types.exists_mem_of_record declared
    exact runs.type?_of_written (Option.mem_def.mp known ▸ entry)
  · rw [Registered.written, Types.record_of_notMem declared] at known
    cases known

/-- A symbol whose type was written down has that type in the end, apart from what is recorded for the names
in it. -/
theorem exists_written {index : SymbolIndex} {type : Ty}
    (known : (Registered.ofFiles files).table.type? index = some type) :
    ∃ final, (index, some final) ∈ (Registered.ofFiles files).boundPlan.entries ∧
      final.bare = type.bare ∧ resolved.table.type? index = some final := by
  have declared : index ∈ (Registered.ofFiles files).plan.symbols := by
    by_contra other
    rw [Registered.type?_of_notMem files other] at known
    cases known
  obtain ⟨entry, member, rfl⟩ := List.mem_map.mp declared
  have typed : entry.2 = some type := (Registered.isFresh_plan files entry member).symm.trans known
  -- the same symbol has the same type in the plan whose names are bound
  have present : (entry.1, some type.bare) ∈
      mapEntries id Ty.bare (Registered.ofFiles files).boundPlan.entries := by
    rw [Registered.boundPlan, Plan.bareEntries_bind]
    exact List.mem_map.mpr ⟨entry, member, by rw [typed]; rfl⟩
  obtain ⟨⟨index, final⟩, bound, same⟩ := List.mem_map.mp present
  obtain ⟨rfl, bare⟩ := Prod.mk.inj same
  obtain ⟨final, rfl, written⟩ := Option.map_eq_some_iff.mp bare
  exact ⟨final, bound, written, runs.type?_of_written bound⟩

/-- Nothing is found out about symbols that are not declared. -/
theorem mem_symbols {index : SymbolIndex} {type : Ty} (known : resolved.table.type? index = some type) :
    index ∈ (Registered.ofFiles files).boundPlan.symbols := by
  by_contra other
  rw [runs.settle.types_of_notMem (by rwa [← Plan.symbols_sequence, ← Registered.boundPlan_eq]),
    Registered.type?_of_notMem files (by rwa [Registered.boundPlan, Plan.symbols_bind] at other)] at known
  cases known

/-- If there is no error in a unit, no name is misused in it, and no field is missing. -/
theorem errors_eq_nil_iff : resolved.errors = [] ↔
    (Registered.ofFiles files).plan.misnamed (Registered.ofFiles files).environment = [] ∧
      outcomes.flatMap Outcome.missing = [] := by
  rw [ResolutionError.eq_nil_iff, runs.misnamed_eq, runs.missing_eq]
  rfl

/-- What is found out about an expression is found out in one of the last walks. -/
theorem exists_outcome {expression : Expr} (member : expression ∈ resolved.files.flatMap Node.expressionsAll) :
    ∃ last ∈ outcomes, expression.finding ∈ last.findings := by
  rw [← List.mem_flatMap, ← runs.findings_eq]
  exact List.mem_map_of_mem member

end Resolved.Runs

end Cadence
