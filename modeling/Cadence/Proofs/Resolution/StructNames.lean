import Cadence.Proofs.Resolution.Frame

/-!
# Names in the types of a resolved unit

If there is no error in a unit, every type that is written down for a declaration ends up with a
struct recorded for each of its names. Types that are found out are copies of types at the time of a
walk, and a global declaration may not have been walked over by then. Its type is copied as it was
written, so nothing is recorded for the names in it.
-/
namespace Cadence

open Source (File)

/-- A name in a type records a struct of that name. -/
def SymbolTable.NamesStruct (table : SymbolTable) (path : Identifier) (symbol : Option SymbolIndex) :
    Prop :=
  ∃ index, symbol = some index ∧ table.isStruct index ∧ table.name? index = some path.value

/-- Nothing is recorded for a name that stands in the type written down for a global declaration. -/
def Registered.LeavesOpen (registered : Registered) (path : Identifier) (symbol : Option SymbolIndex) :
    Prop :=
  symbol = none ∧ ∃ index ∈ registered.globalSymbols, ∃ type ∈ registered.table.type? index,
    (path, none) ∈ type.names

variable {files : List (List Node)}

/-- At first, the names in the types of declarations are those that are written there. -/
theorem Registered.grounded_start (formed : WellFormedTrees files)
    {holds : Identifier → Option SymbolIndex → Prop}
    (leaves : ∀ path symbol, (ofFiles files).LeavesOpen path symbol → holds path symbol) :
    Types.Grounded (ofFiles files).table.type? (ofFiles files).globalSymbols holds := by
  intro index inside type known
  have unbound := (allTypes_ofFiles formed.unbound).1.of_type? known
  refine Ty.allNames_iff.mpr fun ⟨path, symbol⟩ member => ?_
  obtain rfl : symbol = none := Ty.allNames_iff.mp unbound _ member
  exact ⟨nofun, leaves path none ⟨rfl, index, inside, type, known, member⟩⟩

/-- What is recorded for a name in a type is a struct of that name. -/
theorem Resolved.Completes.namesStruct {resolved : Resolved} {written : Types} {type : Ty}
    (completes : resolved.Completes (Registered.ofFiles files))
    (binds : (Registered.ofFiles files).table.BindsIn type) :
    type.AllNames fun path symbol =>
      written.NamesStruct path symbol → resolved.table.NamesStruct path symbol := by
  refine binds.mono fun path symbol bound ⟨index, _, _, own, _⟩ => ?_
  obtain ⟨struct, named⟩ := bound index own
  exact ⟨index, own, (completes.shape.isStruct index).trans struct,
    (completes.shape.name? index).trans named⟩

/-- In a unit without errors, every name in a type that is written down for a declaration records a
struct of that name in the end. So does every name in any other type of a symbol or of an expression of
the trees that were registered, unless nothing is recorded for it and it stands in the type written down
for a global declaration. -/
theorem names_in_types_record_structs (files : List File) :
    let registered := Registered.ofFiles (treesOf files)
    ∃ resolved, Resolved.ofRegistered registered = .ok resolved ∧
      resolved.files.map Node.frameAll = registered.files.map Node.frameAll ∧
      (resolved.errors = [] →
        (∀ index, (registered.table.type? index).isSome →
          ∃ type, resolved.table.type? index = some type ∧
            type.AllNames resolved.table.NamesStruct) ∧
        (∀ index, ∀ type ∈ resolved.table.type? index, type.AllNames fun path symbol =>
          resolved.table.NamesStruct path symbol ∨ registered.LeavesOpen path symbol) ∧
        ∀ expression ∈ resolved.files.flatMap Node.expressionsAll, ∀ type ∈ expression.type,
          type.AllNames fun path symbol =>
            resolved.table.NamesStruct path symbol ∨ registered.LeavesOpen path symbol) := by
  dsimp only
  have formed := wellFormed_treesOf files
  obtain ⟨resolved, run, completes, outcomes, runs⟩ := Resolved.exists_settled formed
  have framed := Resolved.map_frameAll_files formed run
  refine ⟨resolved, run, framed, fun right => ?_⟩
  generalize treesOf files = trees at *
  have structs := Plan.denotesStructs_of_misnamed (runs.errors_eq_nil_iff.mp right).1
  have fits := Registered.wellScoped_boundPlan formed structs
  have wide : (Plan.sequence (Plan.bindAll (Registered.ofFiles trees).environment
      (Registered.ofFiles trees).plans)).WellScoped (fun path symbol =>
        (Registered.ofFiles trees).written.NamesStruct path symbol ∨
          (Registered.ofFiles trees).LeavesOpen path symbol) (Registered.ofFiles trees).globalSymbols :=
    Registered.boundPlan_eq _ ▸ fits.mono (fun _ => id) fun _ _ => .inl
  have grounded := runs.settle.grounded wide
    (Registered.mem_globalSymbols_of_lookup (Registered.declares_declarations trees))
    (Registered.grounded_start formed fun _ _ => .inr)
  -- what is known of all types: something is recorded, or the name is left open
  have names {type : Ty} {known : Set SymbolIndex} (binds : (Registered.ofFiles trees).table.BindsIn type)
      (grounded : type.Grounded known fun path symbol =>
        (Registered.ofFiles trees).written.NamesStruct path symbol ∨
          (Registered.ofFiles trees).LeavesOpen path symbol) :
      type.AllNames fun path symbol => resolved.table.NamesStruct path symbol ∨
        (Registered.ofFiles trees).LeavesOpen path symbol :=
    ((completes.namesStruct binds).and grounded.allNames).mono fun _ _ ⟨sound, known⟩ =>
      known.imp_left sound
  refine ⟨fun index isSome => ?_, fun index type known => ?_, fun expression member type known => ?_⟩
  · obtain ⟨_, start⟩ := Option.isSome_iff_exists.mp isSome
    obtain ⟨type, written, _, known⟩ := runs.exists_written start
    have binds := completes.tableTypes.of_type? known
    exact ⟨type, known, ((completes.namesStruct binds).and (fits.allNames_entries _ written type rfl)).mono
      fun _ _ ⟨sound, known⟩ => sound known⟩
  · have inside := runs.mem_symbols known
    rw [Registered.boundPlan_eq] at inside
    exact names (completes.tableTypes.of_type? known) (grounded.1 index (.inr inside) type known)
  · obtain ⟨nodes, present, inside⟩ := List.mem_flatMap.mp member
    have binds := Node.allTypesAll_expressions (completes.fileTypes nodes present) expression inside type known
    obtain ⟨last, ran, found⟩ := runs.exists_outcome member
    exact names binds (grounded.2 last ran _ found type (Finding.mem_types_of_type known))

/-- A unit in which the type of a binding is copied before the struct in it is looked up. -/
def copiedEarly : File := ⟨.anonymous, "let first = second\nlet second: S = ---\nstruct S \x7b\x7d".toList, 1⟩

/-- There is no error in the unit, and nothing is recorded for the name in the copied type. -/
theorem copied_type_records_nothing :
    ∃ resolved, Resolved.ofRegistered (Registered.ofFiles (treesOf [copiedEarly])) = .ok resolved ∧
      (Parsed.ofFile copiedEarly).errors = [] ∧ resolved.errors = [] ∧
      ∃ type ∈ resolved.table.type? ⟨1⟩, ¬ type.AllNames resolved.table.NamesStruct := by
  have evaluated : (Parsed.ofFile copiedEarly).errors = [] ∧
      (match Resolved.ofRegistered (Registered.ofFiles (treesOf [copiedEarly])) with
      | .ok resolved => decide (resolved.errors.isEmpty ∧
          (resolved.table.type? ⟨1⟩).map Ty.names = some [(⟨"S", ⟨32, 33⟩⟩, none)])
      | .error _ => false) = true := by
    decide +kernel
  obtain ⟨parsed, evaluated⟩ := evaluated
  split at evaluated
  next resolved run =>
    obtain ⟨right, named⟩ := of_decide_eq_true evaluated
    obtain ⟨type, known, names⟩ := Option.map_eq_some_iff.mp named
    refine ⟨resolved, run, parsed, List.isEmpty_iff.mp right, type, known, fun all => ?_⟩
    obtain ⟨index, recorded, _⟩ := Ty.allNames_iff.mp all (⟨"S", ⟨32, 33⟩⟩, none) (by simp [names])
    cases recorded
  next => cases evaluated

end Cadence
