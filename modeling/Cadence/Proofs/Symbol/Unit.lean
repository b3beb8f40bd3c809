import Cadence.Proofs.Parse.Readiness
import Cadence.Proofs.Resolution.Unit
import Cadence.Proofs.Symbol.Contents
import Cadence.Proofs.Syntax.Usage

/-!
# The symbol table of a unit

Registration takes the files of a unit one after the other, and the table ends up with everything
that they declare. Procedures that are defined elsewhere are the ones without a body, so that no
scope is there for their parameters.
-/
namespace Cadence

open Source (File Span)

section Unit

variable (files : List (List Node))

/-- Everything that is declared in a unit, however deep. -/
def Registered.declared (registered : Registered) : List Declared :=
  registered.files.flatMap Node.declaredAll

theorem Node.declaredAll_files :
    files.flatMap Node.declaredAll = (Plan.sequence (files.map Node.planAll)).declared := by
  rw [Plan.declared_sequence, List.flatMap_map]
  exact List.flatMap_congr fun nodes _ => (Node.declared_planAll nodes).symm

theorem Node.declarationsAll_files :
    files.flatMap Node.declarationsAll = (Plan.sequence (files.map Node.planAll)).declarations := by
  induction files with
  | nil => rfl
  | cons first rest ih =>
    rw [List.flatMap_cons, ih, List.map_cons, Plan.sequence, Plan.declarations, Node.declarations_planAll]

namespace Registered

/-- A unit is registered as one plan with consecutive symbols. -/
theorem sequence_plans :
    Plan.sequence (ofFiles files).plans = (Plan.sequence (files.map Node.planAll)).number 1 := by
  rw [plans_ofFiles, Plan.number_sequence]

theorem size_ofFiles :
    (ofFiles files).table.size = (Plan.sequence (files.map Node.planAll)).size + 1 :=
  (Registration.numbers_files files .start).size_eq.trans (Nat.add_comm _ _)

/-- The global scope belongs to nothing. -/
theorem shape?_root : ∃ entry, (ofFiles files).table.shape? SymbolTable.root = some entry ∧
    entry.kind = .scope ∧ entry.parent = none :=
  ⟨_, (Registration.registers_files files SymbolBuilder.isSound_start).scope_entry, rfl, rfl⟩

theorem declared_ofFiles :
    (ofFiles files).declared = ((Plan.sequence (files.map Node.planAll)).number 1).declared := by
  rw [← sequence_plans]
  exact Node.declaredAll_files _

/-- The declarations of a unit take up its table. -/
theorem laysOut_declared : (ofFiles files).table.LaysOut (ofFiles files).declared := by
  have declarations_eq : (ofFiles files).declarations =
      ((Plan.sequence (files.map Node.planAll)).number 1).declarations := by
    rw [← sequence_plans]
    exact Node.declarationsAll_files _
  -- each declaration lies in a scope that consists of its siblings, and the outermost one is the root
  have consists := (declares_declarations files).consistsOf
  obtain ⟨root, entry, isScope, parent⟩ := shape?_root files
  rw [declared_ofFiles]
  constructor
  case placed =>
    intro item member
    rw [declarations_eq] at consists
    obtain ⟨scope, siblings, consists, inside⟩ :=
      Plan.exists_siblings consists (List.Subset.refl _) item member
    exact consists.liesAt inside
  case types =>
    intro item member index symbol
    have written := Plan.mem_entries_of_declared member symbol
    rw [types_ofFiles, ← Plan.entries_sequence, sequence_plans]
    exact Types.record_of_nodup _ (Plan.nodup_symbols_number _) written
  case numbered =>
    exact ⟨_, size_ofFiles files, Plan.blockOf_number _ 1⟩
  case isScope_root => simp [SymbolTable.isScope_eq, entry, isScope, SymbolKind.scope]
  case bodyScope?_root =>
    obtain ⟨symbol, present, rfl⟩ := SymbolTable.symbol?_of_shape? entry
    have parent : symbol.parent = none := parent
    simp [SymbolTable.bodyScope?, present, parent]

/-- Registration changes nothing about declarations but their symbols. -/
theorem outline_declared :
    (ofFiles files).declared.map Declared.outline =
      (files.flatMap Node.declaredAll).map Declared.outline := by
  rw [declared_ofFiles, Node.declaredAll_files, Plan.outline_number]

end Registered

end Unit

section External

/-- A file of a unit is what comes out of the registration of one. -/
theorem Registration.exists_file {files : List (List Node)} {builder : SymbolBuilder}
    {file : List Node} (member : file ∈ ((files.mapM Registration.file).run builder).1) :
    ∃ nodes ∈ files, ∃ builder, file = ((Registration.file nodes).run builder).1 := by
  induction files generalizing builder with
  | nil => cases member
  | cons first rest ih =>
    simp only [List.mapM_cons, run_bind, run_pure] at member
    rcases List.mem_cons.mp member with rfl | later
    · exact ⟨first, List.mem_cons_self, builder, rfl⟩
    · obtain ⟨nodes, present, found⟩ := ih later
      exact ⟨nodes, List.mem_cons_of_mem _ present, found⟩

/-- A procedure of a registered file has a body unless it is defined elsewhere, and then its
parameters have no symbols. -/
theorem Occurs.parameters_external {nodes : List Node} (formed : ∀ node ∈ nodes, node.IsWellFormed)
    {builder : SymbolBuilder} {place : List PartStep} {span : Span} {head : ProcedureHead}
    {body : Option Expr}
    (occurs : Occurs ((Registration.file nodes).run builder).1 place (.procedure span head body)) :
    (body = none ↔ head.isExternal = true) ∧
      (body = none → ∀ parameter ∈ head.parameters, parameter.symbol = none) := by
  obtain ⟨marked, inMarked, builder, same⟩ := occurs.of_registerAll
  obtain ⟨plain, inPlain, rfl⟩ := occurs_markUsage.mp inMarked
  -- marks and symbols make no difference to whether there is a body
  cases plain with
  | procedure span head body =>
    obtain ⟨headFormed, external, _⟩ := inPlain.isWellFormed formed nofun
    cases body with
    | none =>
      cases same
      exact ⟨external, fun _ parameter member => (headFormed.parameters parameter member).1⟩
    | some body =>
      cases same
      exact ⟨⟨nofun, fun isExternal => nomatch external.mpr isExternal⟩, nofun⟩
  | struct | load | binding | expression | assignment => cases same

end External

/-- Whatever source files are registered one after the other, the table consists of the global scope,
one symbol for each declaration, however deep, with its name, its kind and the type that is written
down for it, and one scope for each body. The declarations are those that were parsed. The parameters
of procedures that are defined elsewhere have no symbols. -/
theorem table_records_declarations (files : List File) :
    let registered := Registered.ofFiles (treesOf files)
    registered.table.Records registered.declared ∧
    registered.declared.map Declared.outline =
      ((treesOf files).flatMap Node.declaredAll).map Declared.outline ∧
    ∀ nodes ∈ registered.files, ∀ place span head body,
      Occurs nodes place (.procedure span head body) →
        (body = none ↔ head.isExternal = true) ∧
          (body = none → ∀ parameter ∈ head.parameters, parameter.symbol = none) := by
  intro registered
  refine ⟨(Registered.laysOut_declared _).records, Registered.outline_declared _, ?_⟩
  intro nodes member place span head body occurs
  obtain ⟨tree, parsed, builder, rfl⟩ := Registration.exists_file member
  obtain ⟨file, _, rfl⟩ := List.mem_map.mp parsed
  exact occurs.parameters_external (Parsed.isWellFormed_nodes file _)

end Cadence
