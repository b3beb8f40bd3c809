import Cadence.Proofs.Resolution.Reordering
import Mathlib.Data.List.Perm.Basic

/-!
# The order of the nodes of a file

A file is walked over again until nothing more is found out. What is found out then is the least
solution of its plan, which does not depend on the order of its nodes. If the names of the global
declarations are distinct, the nodes of a file come to the same in every order.
-/
namespace Cadence

open Source (File)

/-- Two lists that consist of parts of the same lengths are equal only if their parts are. -/
theorem forall_eq_of_flatMap_eq {α β : Type} {first second : α → List β} {items : List α}
    (lengths : ∀ item ∈ items, (first item).length = (second item).length)
    (same : items.flatMap first = items.flatMap second) : ∀ item ∈ items, first item = second item := by
  induction items with
  | nil => nofun
  | cons item rest ih =>
    obtain ⟨length, others⟩ := List.forall_mem_cons.mp lengths
    obtain ⟨own, behind⟩ := List.append_inj same length
    exact List.forall_mem_cons.mpr ⟨own, ih others behind⟩

/-- What is paired with an image can be paired with one of its origins. -/
theorem exists_zip_of_perm {α β γ : Type} {view : β → γ} {items items' : List α} {origins' : List β}
    {images : List γ} (length : items.length = images.length)
    (perm : (items'.zip (origins'.map view)).Perm (items.zip images)) :
    ∃ origins, origins.map view = images ∧ (items'.zip origins').Perm (items.zip origins) := by
  rw [List.zip_map_right] at perm
  obtain ⟨pairs, same, perm⟩ :=
    (congrFun₂ (List.eq_map_comp_perm (Prod.map id view)) _ _).mpr perm.symm
  have firsts : pairs.map Prod.fst = items := by
    have firsts := congrArg (List.map Prod.fst) same
    rw [List.map_fst_zip (Nat.le_of_eq length), List.map_map] at firsts
    exact firsts.symm
  have seconds := congrArg (List.map Prod.snd) same
  rw [List.map_snd_zip (Nat.le_of_eq length.symm), List.map_map] at seconds
  refine ⟨pairs.map Prod.snd, by rw [List.map_map]; exact seconds.symm, ?_⟩
  rw [← List.zip_of_prod firsts rfl]
  exact perm.symm

namespace Plan

theorem declarations_sequence (plans : List Plan) :
    (sequence plans).declarations = plans.flatMap declarations := by
  induction plans with
  | nil => rfl
  | cons first rest ih => rw [sequence, declarations, ih, List.flatMap_cons]

end Plan

namespace Registered

/-- The numbered plans of the nodes of a file that is a unit on its own. -/
def parts (nodes : List Node) : List Plan := Plan.numberAll 1 (nodes.map Node.plan)

theorem plans_single (nodes : List Node) : (ofFiles [nodes]).plans = [.sequence (parts nodes)] := by
  rw [plans_ofFiles, List.map_singleton, Node.planAll_eq, Plan.numberAll, Plan.numberAll,
    Plan.number_sequence]
  rfl

theorem isPlain_parts {nodes : List Node} (formed : WellFormedTrees [nodes]) :
    ∀ part ∈ parts nodes, part.AllWritten Ty.IsPlain := by
  have plain := Plan.AllWritten.of_sequence (isPlain_plan formed)
  rw [plans_single] at plain
  exact Plan.AllWritten.of_sequence (List.forall_mem_singleton.mp plain)

theorem boundPlans_single (nodes : List Node) : (ofFiles [nodes]).boundPlans =
    [.sequence (Plan.bindAll (ofFiles [nodes]).environment (parts nodes))] := by
  rw [boundPlans, plans_single, Plan.bindAll, Plan.bindAll, Plan.bind_sequence]

/-- A file that is a unit on its own is made of its nodes. -/
theorem consistsOf_nodes (nodes : List Node) : (ofFiles [nodes]).ConsistsOf (parts nodes) where
  declarations_eq := by
    rw [← declarations_plan, plan, plans_single, Plan.declarations_sequence, List.flatMap_singleton,
      Plan.declarations_sequence]
  misnamed_eq := by
    rw [plan, plans_single, Plan.sequence, Plan.sequence, Plan.misnamed]
    exact List.append_nil _
  entries_eq := by
    have single := boundPlans_single nodes
    rw [boundPlans] at single
    rw [boundPlan_eq, single, Plan.entries_sequence, List.flatMap_singleton, Plan.entries_sequence]

/-- Nodes in another order are given other symbols. -/
theorem exists_reorders_nodes {nodes nodes' : List Node} (formed : ∀ node ∈ nodes, node.IsWellFormed)
    (perm : nodes'.Perm nodes) : ∃ σ : Equiv.Perm SymbolIndex,
      (nodes'.zip (parts nodes')).Perm (nodes.zip ((parts nodes).map (Plan.rename σ))) := by
  obtain ⟨σ, _, same⟩ := Plan.exists_renaming Node.plan perm (fun node member => (formed node member).isBlank) 1
  exact ⟨σ, same⟩

end Registered

/-- What became of a file that is a unit on its own and has no errors: the types that are found out are
the least solution, and what is found out about each expression is what follows from them. -/
structure Resolved.SolvesNodes (resolved : Resolved) (nodes result : List Node) (types : Types) : Prop where
  files_eq : resolved.files = [result]
  plans_eq : result.map Node.plan =
    Plan.bindAll (Registered.ofFiles [nodes]).environment (Registered.parts nodes)
  solution : Plan.IsSolution (Registered.ofFiles [nodes]).layout
    (Plan.bindAll (Registered.ofFiles [nodes]).environment (Registered.parts nodes))
      (Registered.ofFiles [nodes]).written types
  least : ∀ other, Plan.IsSolution (Registered.ofFiles [nodes]).layout
    (Plan.bindAll (Registered.ofFiles [nodes]).environment (Registered.parts nodes))
      (Registered.ofFiles [nodes]).written other → types.Grow other
  findings_eq : ∀ node ∈ result,
    node.expressions.map (Finding.map id (Ty.complete (Registered.ofFiles [nodes]).table.lookupGlobal?) ∘
        Expr.finding) =
      (node.plan.run (fun _ => (Registered.ofFiles [nodes]).layout) types).findings

theorem Resolved.SolvesNodes.length_eq {resolved : Resolved} {nodes result : List Node} {types : Types}
    (solves : resolved.SolvesNodes nodes result types) : result.length = nodes.length := by
  simpa [Registered.parts] using congrArg List.length solves.plans_eq

theorem Resolved.Runs.exists_solves {nodes : List Node} {resolved : Resolved} {outcomes : List Outcome}
    (runs : resolved.Runs (Registered.ofFiles [nodes]) outcomes) (formed : WellFormedTrees [nodes])
    (distinct : HaveDistinctNames (Registered.ofFiles [nodes]).declarations)
    (right : resolved.errors = []) : ∃ result types, resolved.SolvesNodes nodes result types := by
  obtain ⟨misnamed, missing⟩ := runs.errors_eq_nil_iff.mp right
  obtain ⟨outcomes', final', settle, finds, _⟩ :=
    Registered.exists_completed formed distinct (Plan.denotesStructs_of_misnamed misnamed) runs
  have single := Registered.boundPlans_single nodes
  have symbols := Registered.nodup_symbols_bindAll [nodes]
  have fresh := @Registered.isFresh_boundPlans [nodes]
  have plans : resolved.files.map Node.planAll = (Registered.ofFiles [nodes]).boundPlans := runs.plans_eq
  have findings := runs.findings_eq
  change (((Registered.ofFiles [nodes]).boundPlans).flatMap Plan.symbols).Nodup at symbols
  rw [single] at plans settle symbols fresh
  -- the tree that comes out has as many nodes as the one that went in, with the same plans
  obtain ⟨result, files, planned⟩ := List.map_eq_singleton_iff.mp plans
  rw [Node.planAll_eq] at planned
  have bound := Plan.sequence_injective planned
  rw [← bound, List.flatMap_singleton] at symbols
  rw [← bound] at settle fresh
  have bounds {other : Types} (solution : Plan.IsSolution (Registered.ofFiles [nodes]).layout
      (result.map Node.plan) (Registered.ofFiles [nodes]).written other) : final'.Grow other :=
    (solution.sequence.bounds settle).1
  rw [← Plan.missing_of_completed finds] at missing
  -- there is one file, and so one last walk
  obtain _ | ⟨settles, rest⟩ := settle
  cases rest
  obtain _ | ⟨completed, rest⟩ := finds
  cases rest
  simp only [List.flatMap_cons, List.flatMap_nil, List.append_nil] at missing findings
  obtain ⟨solution, inParts⟩ := settles.isSolution symbols (fresh _ (List.mem_singleton_self _)) missing
  refine ⟨result, _, files, bound, bound ▸ solution, fun other solves => bounds (bound ▸ solves), ?_⟩
  -- node by node, the expressions have as many findings as their plan, so the lists agree piecewise
  refine forall_eq_of_flatMap_eq (fun node _ => ?_) ?_
  · rw [List.length_map, Plan.length_findings, Node.length_expressions]
  · rw [files, List.flatMap_singleton, Node.expressionsAll_eq] at findings
    rw [completed.1, ← findings, List.map_map, List.map_flatMap, List.flatMap_map] at inParts
    exact inParts

/-- An expression that is the same as another one apart from the symbols: it has the same place and the
same type as it is written, and it refers to the corresponding symbol if it is a reference, or asks for
the same field of something of the same type. -/
structure Expr.SameUpTo (σ : SymbolIndex → SymbolIndex) (left right : Expr) : Prop where
  span : right.span = left.span
  usage : right.form.usage.map id Ty.bare = left.form.usage.map σ Ty.bare
  type : right.type.map Ty.bare = left.type.map Ty.bare

/-- A node that is the same as another one apart from the symbols. It makes the same declarations, and
its expressions are the same, one by one. -/
structure Node.SameUpTo (σ : SymbolIndex → SymbolIndex) (left right : Node) : Prop where
  declarations : right.declarations = Declaration.renameAll σ left.declarations
  expressions : List.Forall₂ (Expr.SameUpTo σ) left.expressions right.expressions

theorem forall₂_of_map_eq {α β γ : Type} {view : α → γ} {view' : β → γ} {left : List α}
    {right : List β} (same : left.map view = right.map view') :
    List.Forall₂ (fun item other => view item = view' other) left right := by
  have equal : List.Forall₂ Eq (left.map view) (right.map view') := same ▸ List.forall₂_refl _
  rwa [List.forall₂_map_left_iff, List.forall₂_map_right_iff] at equal

namespace Resolved.SolvesNodes

variable {nodes nodes' result result' : List Node} {resolved resolved' : Resolved} {types types' : Types}
  {σ : Equiv.Perm SymbolIndex}
  (solves : resolved.SolvesNodes nodes result types)
  (solves' : resolved'.SolvesNodes nodes' result' types')
  (formed : WellFormedTrees [nodes]) (formed' : WellFormedTrees [nodes'])
  (reorders : (Registered.parts nodes').Perm ((Registered.parts nodes).map (Plan.rename σ)))
  (distinct : HaveDistinctNames ((Registered.parts nodes).flatMap Plan.declarations))
include solves solves' formed formed' reorders distinct

/-- The types that are found out in one order are those that are found out in the other one. -/
theorem types_eq : types' = types.rename σ := by
  have consists := Registered.consistsOf_nodes nodes
  have consists' := Registered.consistsOf_nodes nodes'
  have solution := consists.isSolution consists' reorders distinct (Registered.isPlain_parts formed)
    solves.solution
  have solution' := consists'.isSolution consists (Plan.reorders_symm reorders) (distinct.reordered reorders)
    (Registered.isPlain_parts formed') solves'.solution
  refine (solves'.least _ solution).antisymm ?_
  have grow := (solves.least _ solution').rename σ
  rwa [Types.rename_symm] at grow

/-- Nodes whose plans are the same apart from the symbols come to the same. -/
theorem sameUpTo {node node' : Node} (member : node ∈ result) (member' : node' ∈ result')
    (plan : node'.plan = node.plan.rename σ) : node.SameUpTo σ node' := by
  have consists := Registered.consistsOf_nodes nodes
  have plain : node.plan.AllWritten Ty.IsPlain := by
    have present : node.plan ∈ result.map Node.plan := List.mem_map_of_mem member
    rw [solves.plans_eq, (consists.bindAll_eq distinct).1] at present
    obtain ⟨part, inside, same⟩ := List.mem_map.mp present
    exact same ▸ Plan.allWritten_bind (Registered.isPlain_parts formed part inside) _
  have findings := solves'.findings_eq node' member'
  rw [plan, solves.types_eq solves' formed formed' reorders distinct,
    Plan.run_rename σ (consists.layout (Registered.consistsOf_nodes nodes') reorders distinct) _ plain,
    Outcome.rename, ← solves.findings_eq node member] at findings
  -- what is recorded for the names in types is left aside
  have complete (globals : String → Option SymbolIndex) : Ty.bare ∘ Ty.complete globals = Ty.bare :=
    funext fun type => Ty.bare_mapNames type
  have renamed : Ty.bare ∘ Ty.rename σ = Ty.bare := funext fun type => Ty.bare_mapNames type
  have same := congrArg (List.map (Finding.map id Ty.bare)) findings
  simp only [List.map_map, ← Function.comp_assoc, Finding.map_comp_map, complete, renamed] at same
  refine ⟨?_, (forall₂_of_map_eq same).flip.imp fun left right same => ?_⟩
  · rw [← node'.declarations_plan, ← node.declarations_plan, plan, Plan.declarations_rename]
  · exact ⟨congrArg Finding.span same, congrArg Finding.usage same, congrArg Finding.type same⟩

/-- Each node comes to the same as the node in the other order that it corresponds to. -/
theorem exists_aligned
    (pairs : (nodes'.zip (Registered.parts nodes')).Perm
      (nodes.zip ((Registered.parts nodes).map (Plan.rename σ)))) :
    ∃ aligned, (nodes'.zip result').Perm (nodes.zip aligned) ∧
      List.Forall₂ (Node.SameUpTo σ) result aligned := by
  have consists := Registered.consistsOf_nodes nodes
  have consists' := Registered.consistsOf_nodes nodes'
  -- the pairs of nodes and plans are still pairs when the names in the plans are bound
  have bound := pairs.map (Prod.map id (Plan.bind (Environment.behind
    ((Registered.parts nodes').flatMap Plan.declarations))))
  have renamed : ((Registered.parts nodes).map (Plan.rename σ)).map (Plan.bind (Environment.behind
      ((Registered.parts nodes').flatMap Plan.declarations))) = (result.map Node.plan).map (Plan.rename σ) := by
    rw [solves.plans_eq, (consists.bindAll_eq distinct).1, List.map_map, List.map_map]
    exact List.map_congr_left fun part member => (Plan.bind_reordered reorders distinct member).1
  rw [← List.zip_map_right, ← List.zip_map_right, renamed,
    ← (consists'.bindAll_eq (distinct.reordered reorders)).1, ← solves'.plans_eq] at bound
  obtain ⟨aligned, plans, perm⟩ := exists_zip_of_perm (by simp [solves.length_eq]) bound
  have same := List.forall₂_iff_zip.mp (forall₂_of_map_eq (plans.trans List.map_map).symm)
  refine ⟨aligned, perm, List.forall₂_iff_zip.mpr ⟨same.1, fun member => ?_⟩⟩
  have inside := List.of_mem_zip member
  have inside' : _ ∈ result' := (perm_of_zip perm (by simp [← same.1, solves.length_eq])
    (by simp [solves'.length_eq])).mem_iff.mpr inside.2
  exact solves.sameUpTo solves' formed formed' reorders distinct inside.1 inside' (same.2 member).symm

end Resolved.SolvesNodes

/-- If there is no error in one order of the nodes of a file, there is none in the other one. -/
theorem Resolved.Runs.errors_eq_nil_of_reorders {nodes nodes' : List Node} {resolved resolved' : Resolved}
    {outcomes outcomes' : List Outcome} {σ : Equiv.Perm SymbolIndex}
    (runs : resolved.Runs (Registered.ofFiles [nodes]) outcomes)
    (runs' : resolved'.Runs (Registered.ofFiles [nodes']) outcomes')
    (formed : WellFormedTrees [nodes]) (formed' : WellFormedTrees [nodes'])
    (reorders : (Registered.parts nodes').Perm ((Registered.parts nodes).map (Plan.rename σ)))
    (distinct : HaveDistinctNames (Registered.ofFiles [nodes]).declarations)
    (right : resolved.errors = []) : resolved'.errors = [] := by
  have consists := Registered.consistsOf_nodes nodes
  have consists' := Registered.consistsOf_nodes nodes'
  obtain ⟨result, types, solves⟩ := runs.exists_solves formed distinct right
  have names := consists.declarations_eq ▸ distinct
  have names' := names.reordered reorders
  rw [← consists'.declarations_eq] at names'
  have misnamed := consists.misnamed consists' reorders names
  rw [(runs.errors_eq_nil_iff.mp right).1] at misnamed
  have solution := consists.isSolution consists' reorders names (Registered.isPlain_parts formed) solves.solution
  have single := Registered.boundPlans_single nodes'
  exact runs'.errors_eq_nil_of_solution formed' names' misnamed.eq_nil (single ▸ solution.sequence)

/-- The order of the nodes of a file that is a unit on its own makes no difference to which names are
misused in it and to whether it has errors. If it has none, each node comes to the same in both orders,
apart from which symbols there are. -/
theorem node_order_irrelevant (file : File) {nodes' : List Node}
    (perm : nodes'.Perm (Parsed.ofFile file).nodes)
    (distinct : (Registered.ofFiles [(Parsed.ofFile file).nodes]).HasDistinctGlobals) :
    ∃ resolved resolved',
      Resolved.ofRegistered (Registered.ofFiles [(Parsed.ofFile file).nodes]) = .ok resolved ∧
      Resolved.ofRegistered (Registered.ofFiles [nodes']) = .ok resolved' ∧
      (resolved'.errors = [] ↔ resolved.errors = []) ∧
      (resolved'.errors.filterMap ResolutionError.misnaming?).Perm
        (resolved.errors.filterMap ResolutionError.misnaming?) ∧
      (resolved.errors = [] → ∃ (σ : Equiv.Perm SymbolIndex) (result result' aligned : List Node),
        resolved.files = [result] ∧ result.length = (Parsed.ofFile file).nodes.length ∧
        resolved'.files = [result'] ∧ result'.length = nodes'.length ∧
        (nodes'.zip result').Perm ((Parsed.ofFile file).nodes.zip aligned) ∧
        List.Forall₂ (Node.SameUpTo σ) result aligned) := by
  have each : ∀ node ∈ (Parsed.ofFile file).nodes, node.IsWellFormed := Parsed.isWellFormed_nodes file _
  generalize (Parsed.ofFile file).nodes = nodes at *
  have formed : WellFormedTrees [nodes] := List.forall_mem_singleton.mpr each
  have formed' : WellFormedTrees [nodes'] :=
    List.forall_mem_singleton.mpr fun node member => each node (perm.mem_iff.mp member)
  obtain ⟨resolved, run, _, outcomes, runs⟩ := Resolved.exists_settled formed
  obtain ⟨resolved', run', _, outcomes', runs'⟩ := Resolved.exists_settled formed'
  obtain ⟨σ, pairs⟩ := Registered.exists_reorders_nodes each perm
  have consists := Registered.consistsOf_nodes nodes
  have consists' := Registered.consistsOf_nodes nodes'
  have reorders := perm_of_zip pairs (by simp [Registered.parts]) (by simp [Registered.parts])
  have names := consists.declarations_eq ▸ distinct.names
  have names' := names.reordered reorders
  have onward := runs.errors_eq_nil_of_reorders runs' formed formed' reorders distinct.names
  have back := runs'.errors_eq_nil_of_reorders runs formed' formed (Plan.reorders_symm reorders)
    (consists'.declarations_eq ▸ names')
  refine ⟨resolved, resolved', run, run', ⟨back, onward⟩, ?_, fun right => ?_⟩
  · rw [runs.misnamed_eq, runs'.misnamed_eq]
    exact consists.misnamed consists' reorders names
  · obtain ⟨result, types, solves⟩ := runs.exists_solves formed distinct.names right
    obtain ⟨result', types', solves'⟩ := runs'.exists_solves formed'
      (consists'.declarations_eq ▸ names') (onward right)
    obtain ⟨aligned, same, aligns⟩ := solves.exists_aligned solves' formed formed' reorders names pairs
    exact ⟨σ, result, result', aligned, solves.files_eq, solves.length_eq, solves'.files_eq,
      solves'.length_eq, same, aligns⟩

/-- A file in which a binding is used in front of the one that its type is found from. -/
def usedEarly : File := ⟨.anonymous, "proc main() -> int = first\nlet first = second\nlet second = 7".toList, 1⟩

/-- The nodes of the file can be put into the opposite order, and there are no errors in either. -/
theorem node_order_reversed :
    (Registered.ofFiles [(Parsed.ofFile usedEarly).nodes]).HasDistinctGlobals ∧
    ∃ resolved resolved',
      Resolved.ofRegistered (Registered.ofFiles [(Parsed.ofFile usedEarly).nodes]) = .ok resolved ∧
      Resolved.ofRegistered (Registered.ofFiles [(Parsed.ofFile usedEarly).nodes.reverse]) = .ok resolved' ∧
      resolved.errors = [] ∧ resolved'.errors = [] := by
  have evaluated : (Registered.ofFiles [(Parsed.ofFile usedEarly).nodes]).HasDistinctGlobals ∧
      (match Resolved.ofRegistered (Registered.ofFiles [(Parsed.ofFile usedEarly).nodes]) with
      | .ok resolved => resolved.errors.isEmpty
      | .error _ => false) = true := by
    unfold Registered.HasDistinctGlobals
    decide +kernel
  obtain ⟨distinct, evaluated⟩ := evaluated
  obtain ⟨resolved, resolved', run, run', same, _⟩ :=
    node_order_irrelevant usedEarly (List.reverse_perm _) distinct
  rw [run] at evaluated
  have right := List.isEmpty_iff.mp evaluated
  exact ⟨distinct, resolved, resolved', run, run', right, same.mpr right⟩

end Cadence
