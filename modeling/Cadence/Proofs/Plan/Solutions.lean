import Cadence.Proofs.Plan.Settling
import Cadence.Proofs.Plan.Renaming
import Cadence.Proofs.Syntax.Usage

/-!
# Solutions of plans

If it is fixed what the fields of values are, the walks over some trees look for types that no walk
over any of the trees changes. The order of the trees plays no part in what such a solution is, and
where there is one in which no field is missing, the walks do not miss any field either.
-/
namespace Cadence

variable {layout layout' : Ty → Layout} {start start' types final : Types}

/-- The order in which types are recorded for different symbols makes no difference. -/
theorem Types.record_perm (types : Types) {entries entries' : List (SymbolIndex × Option Ty)}
    (perm : entries'.Perm entries) (distinct : (entries.map Prod.fst).Nodup) :
    types.record entries' = types.record entries := by
  have distinct' : (entries'.map Prod.fst).Nodup := (perm.map Prod.fst).nodup_iff.mpr distinct
  funext index
  by_cases member : index ∈ entries.map Prod.fst
  · obtain ⟨⟨index, type⟩, present, rfl⟩ := List.mem_map.mp member
    rw [record_of_nodup types distinct present, record_of_nodup types distinct' (perm.mem_iff.mpr present)]
  · rw [record_of_notMem member, record_of_notMem fun again => member ((perm.map _).mem_iff.mp again)]

theorem Types.Grow.rename {before after : Types} (grow : before.Grow after) (σ : Equiv.Perm SymbolIndex) :
    (before.rename σ).Grow (after.rename σ) := by
  intro index type known
  obtain ⟨former, present, rfl⟩ := Option.map_eq_some_iff.mp known
  exact Option.mem_map_of_mem _ (grow _ former present)

theorem Types.rename_symm (types : Types) (σ : Equiv.Perm SymbolIndex) :
    (types.rename σ.symm).rename σ = types := by
  funext index
  have back : Ty.rename σ ∘ Ty.rename σ.symm = id :=
    funext fun type => by rw [Function.comp_apply, Ty.rename_rename, σ.self_comp_symm, Ty.rename_id, id]
  simp [rename, back]

namespace Plan

variable {plan : Plan} {plans plans' : List Plan} {last : Outcome} {outcomes : List Outcome}

theorem entries_rename (σ : SymbolIndex → SymbolIndex) (plan : Plan) :
    (plan.rename σ).entries = mapEntries σ (Ty.rename σ) plan.entries := by
  induction plan with
  | value | stated | reference => rfl
  | field span target name ih => exact ih
  | expression span inner ih => exact ih
  | external head => exact head.entries_map
  | procedure head body ih =>
    have parameters := Member.entries_map σ (Ty.rename σ) head.parameters
    have own : (head.map σ (Ty.rename σ)).entries = _ := head.entries_map
    simp only [rename, entries, ih, own, mapEntries, List.map_append] at parameters ⊢
    rw [← parameters]
    rfl
  | struct declared =>
    have fields := Member.entries_map σ (Ty.rename σ) declared.fields
    have own : (declared.map σ (Ty.rename σ)).entries = _ := declared.entries_map
    simp only [rename, entries, own, mapEntries, List.map_append] at fields ⊢
    rw [← fields]
    rfl
  | binding head initial ih =>
    have own := head.entries_map σ (Ty.rename σ) none
    simp only [rename, entries, ih, mapEntries, List.map_append] at own ⊢
    rw [← own]
    rfl
  | combine rule first second ihFirst ihSecond =>
    simp only [rename, entries, ihFirst, ihSecond, mapEntries, List.map_append]

/-- Types that extend what is written down, that no walk changes and in which no field is missing. -/
structure IsSolution (layout : Ty → Layout) (plans : List Plan) (start types : Types) : Prop where
  grow : start.Grow types
  solved : ∀ plan ∈ plans, plan.IsSolved (fun _ => layout) types
  complete : ∀ plan ∈ plans, (plan.run (fun _ => layout) types).missing = []

namespace IsSolution

theorem perm (solution : IsSolution layout plans start types) (perm : plans'.Perm plans) :
    IsSolution layout plans' start types :=
  ⟨solution.grow, fun plan member => solution.solved plan (perm.mem_iff.mp member),
    fun plan member => solution.complete plan (perm.mem_iff.mp member)⟩

/-- To exchange all symbols for others makes no difference. -/
theorem rename (solution : IsSolution layout plans start types) (σ : Equiv.Perm SymbolIndex)
    (layouts : ∀ type, layout' (type.rename σ) = (layout type).mapNames fun _ symbol => symbol.map σ)
    {holds : Ty → Prop} (written : ∀ plan ∈ plans, plan.AllWritten holds) :
    IsSolution layout' (plans.map (Plan.rename σ)) (start.rename σ) (types.rename σ) := by
  refine ⟨solution.grow.rename σ, List.forall_mem_map.mpr fun plan member => ?_,
    List.forall_mem_map.mpr fun plan member => ?_⟩
  · rw [IsSolved, step, run_rename σ layouts plan (written plan member)]
    exact congrArg (Types.rename σ) (solution.solved plan member)
  · rw [run_rename σ layouts plan (written plan member)]
    exact solution.complete plan member

/-- A walk over all trees does not change a solution either. -/
theorem sequence (solution : IsSolution layout plans start types) :
    IsSolution layout [.sequence plans] start types := by
  obtain ⟨solved, _, missing⟩ := run_sequence solution.solved
  refine ⟨solution.grow, List.forall_mem_singleton.mpr solved, List.forall_mem_singleton.mpr ?_⟩
  rw [missing, List.flatMap_eq_nil_iff]
  exact solution.complete

/-- Where there is a solution, no field is missing in the end, and no more is found out. -/
theorem bounds (solution : IsSolution layout plans start types)
    (settle : SettleAll (fun _ => layout) plans start outcomes final) :
    final.Grow types ∧ outcomes.flatMap Outcome.missing = [] := by
  obtain ⟨below, missing⟩ := settle.grow_bound solution.grow solution.solved
  refine ⟨below, List.flatMap_eq_nil_iff.mpr fun last member => ?_⟩
  obtain ⟨plan, present, fewer⟩ := exists_mem_related missing.flip member
  exact List.subset_nil.mp (solution.complete plan present ▸ fewer)

end IsSolution

/-- If no reference was left without a type that was found out later, and no field is missing, the
walks over some trees end with a solution. -/
theorem SettleAll.isSolution (settle : SettleAll (fun _ => layout) plans start outcomes final)
    (distinct : (plans.flatMap symbols).Nodup) (fresh : ∀ plan ∈ plans, plan.IsFresh start)
    (silent : ∀ last ∈ outcomes, ∀ finding ∈ last.findings, ∀ index,
      finding.usage = .reference (some index) → finding.type = none → final index = none)
    (complete : outcomes.flatMap Outcome.missing = []) : IsSolution layout plans start final := by
  have runs := settle.solves distinct fresh silent
  rw [List.flatMap_eq_nil_iff] at complete
  refine ⟨settle.grow distinct fresh, fun plan member => ?_, fun plan member => ?_⟩
  · obtain ⟨last, _, ran⟩ := exists_mem_related runs member
    rw [IsSolved, step, ran]
  · obtain ⟨last, present, ran⟩ := exists_mem_related runs member
    rw [ran]
    exact complete last present

/-- If no field is missing, the walks over a single tree end with a solution of its parts, and what is
found out is found out in the parts. -/
theorem Settles.isSolution (settles : (sequence plans).Settles (fun _ => layout) start last)
    (distinct : (sequence plans).symbols.Nodup) (fresh : (sequence plans).IsFresh start)
    (complete : last.missing = []) : IsSolution layout plans start last.types ∧
      last.findings = plans.flatMap fun plan => (plan.run (fun _ => layout) last.types).findings := by
  have grow : start.Grow ((sequence plans).step (fun _ => layout) start) := fresh.grow_step distinct
  -- one more walk comes to the same, and then so does one over each part
  have again := settles.run_eq grow
  have solved : (sequence plans).IsSolved (fun _ => layout) last.types := by rw [IsSolved, step, again]
  rw [symbols_sequence] at distinct
  have parts := IsSolved.of_sequence distinct solved
  obtain ⟨_, findings, missing⟩ := run_sequence parts
  rw [again] at findings missing
  refine ⟨⟨settles.grow grow, parts, ?_⟩, findings⟩
  exact List.flatMap_eq_nil_iff.mp (missing.symm.trans complete)

end Plan

end Cadence
