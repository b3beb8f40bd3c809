import Cadence.Proofs.Plan.Reordering
import Cadence.Proofs.Resolution.Completion

/-!
# Units whose parts are put into another order

Two units consist of the same parts, which are plans, in different orders, and each part has other
symbols in one of them than in the other. If the names of the global declarations are distinct, what is
written down in both, what the fields of values are and which types are solutions is the same apart
from which symbols there are.
-/
namespace Cadence

open Environment (behind)

/-- A unit is made of some plans that follow each other. -/
structure Registered.ConsistsOf (registered : Registered) (parts : List Plan) : Prop where
  declarations_eq : registered.declarations = parts.flatMap Plan.declarations
  misnamed_eq : registered.plan.misnamed registered.environment =
    (Plan.sequence parts).misnamed registered.environment
  entries_eq : registered.boundPlan.entries =
    (Plan.bindAll registered.environment parts).flatMap Plan.entries

theorem Environment.headingOf?_start (declared : List Declaration) (name : String) :
    Environment.headingOf? ⟨[], [], declared⟩ name = (first? name declared).map Declaration.heading := by
  simp [headingOf?, denoted?, latest?, first?]

namespace Registered.ConsistsOf

section One

variable {registered : Registered} {parts : List Plan} (consists : registered.ConsistsOf parts)
  (distinct : HaveDistinctNames (parts.flatMap Plan.declarations))
include consists distinct

theorem bindAll_eq :
    Plan.bindAll registered.environment parts =
        parts.map (Plan.bind (behind (parts.flatMap Plan.declarations))) ∧
      registered.plan.misnamed registered.environment =
        parts.flatMap (Plan.misnamed (behind (parts.flatMap Plan.declarations))) := by
  rw [consists.misnamed_eq, environment, consists.declarations_eq]
  exact @Plan.bindAll_eq [] parts distinct

end One

variable {files files' : List (List Node)} {parts parts' : List Plan} {σ : Equiv.Perm SymbolIndex}
  (consists : (ofFiles files).ConsistsOf parts) (consists' : (ofFiles files').ConsistsOf parts')
  (reorders : parts'.Perm (parts.map (Plan.rename σ)))
  (distinct : HaveDistinctNames (parts.flatMap Plan.declarations))
include consists consists' reorders distinct

/-- The same names are misused in both units. -/
theorem misnamed : ((ofFiles files').plan.misnamed (ofFiles files').environment).Perm
    ((ofFiles files).plan.misnamed (ofFiles files).environment) := by
  rw [(consists.bindAll_eq distinct).2, (consists'.bindAll_eq (distinct.reordered reorders)).2]
  exact Plan.misnamed_reordered reorders distinct

/-- The same is written down in both units. -/
theorem written : (ofFiles files').written = (ofFiles files).written.rename σ := by
  have nothing : Types.rename σ (fun _ => none) = fun _ => none := rfl
  rw [Registered.written, Registered.written, Types.rename_record, nothing]
  refine (Types.record_perm _ ?_ (nodup_symbols_boundPlan files')).symm
  rw [consists.entries_eq, consists'.entries_eq, (consists.bindAll_eq distinct).1,
    (consists'.bindAll_eq (distinct.reordered reorders)).1]
  have same := ((Plan.map_bind_reordered reorders distinct).flatMap_right Plan.entries).symm
  refine (List.Perm.of_eq ?_).trans same
  rw [mapEntries, List.map_flatMap, List.flatMap_map, List.flatMap_map, List.flatMap_map]
  exact List.flatMap_congr fun part _ => (Plan.entries_rename σ _).symm

/-- A name of a global declaration stands for the same one in both units. -/
theorem lookupGlobal?_eq (name : String) : (ofFiles files').table.lookupGlobal? name =
    ((ofFiles files).table.lookupGlobal? name).map σ := by
  have denoted := (Environment.corresponds_reordered reorders distinct).globals name
  simp only [Environment.behind, ← consists.declarations_eq, ← consists'.declarations_eq] at denoted
  rw [Registered.lookupGlobal?_eq (declares_declarations files),
    Registered.lookupGlobal?_eq (declares_declarations files'), Environment.symbolOf?,
    Environment.symbolOf?, environment, environment, Environment.headingOf?_start,
    Environment.headingOf?_start, denoted]
  cases (first? name (ofFiles files).declarations).map Declaration.heading <;> rfl

/-- The fields of the values of a type are the same in both units. -/
theorem layout (type : Ty) : (ofFiles files').layout (type.rename σ) =
    ((ofFiles files).layout type).mapNames fun _ symbol => symbol.map σ := by
  cases type with
  | struct | builtin | pointer | procedure => rfl
  | named path symbol =>
    have chosen : (symbol.map σ).or ((ofFiles files').table.lookupGlobal? path.value) =
        (symbol.or ((ofFiles files).table.lookupGlobal? path.value)).map σ := by
      rw [consists.lookupGlobal?_eq consists' reorders distinct, Option.map_or]
    simp only [Registered.layout, Ty.rename, Ty.mapNames, Types.layout, chosen]
    cases symbol.or ((ofFiles files).table.lookupGlobal? path.value) with
    | none => rfl
    | some index =>
      rw [Option.map_some, consists.written consists' reorders distinct]
      simp only [Types.rename, Equiv.symm_apply_apply]
      exact Layout.ofDeclared_map _

/-- A solution of one unit is a solution of the other one. -/
theorem isSolution (plain : ∀ part ∈ parts, part.AllWritten Ty.IsPlain) {types : Types}
    (solution : Plan.IsSolution (ofFiles files).layout
      (Plan.bindAll (ofFiles files).environment parts) (ofFiles files).written types) :
    Plan.IsSolution (ofFiles files').layout
      (Plan.bindAll (ofFiles files').environment parts') (ofFiles files').written (types.rename σ) := by
  rw [(consists.bindAll_eq distinct).1] at solution
  rw [consists.written consists' reorders distinct, (consists'.bindAll_eq (distinct.reordered reorders)).1]
  have written : ∀ bound ∈ parts.map (Plan.bind (behind (parts.flatMap Plan.declarations))),
      bound.AllWritten Ty.IsPlain :=
    List.forall_mem_map.mpr fun part member => Plan.allWritten_bind (plain part member) _
  exact (solution.rename σ (consists.layout consists' reorders distinct) written).perm
    (Plan.map_bind_reordered reorders distinct)

end Registered.ConsistsOf

end Cadence
