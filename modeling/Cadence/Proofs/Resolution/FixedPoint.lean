import Cadence.Proofs.Plan.FixedPoint
import Cadence.Proofs.Resolution.NodeOrder
import Cadence.Proofs.Resolution.Rounds
import Cadence.Proofs.Resolution.Sameness

/-!
# Files are walked over until nothing changes

The loop over a file only looks at how many references to symbols of unknown type there are. If each name
stands for one declaration, that is enough: when their number stays the same, another walk would come to
the same tree, the same table and the same errors. Only what is recorded for the names in types may still
differ, as types are copied before the names in them are looked up.
-/
namespace Cadence

open Resolving
open Source (File)

/-- A symbol without what is recorded for the names in its type. -/
def Symbol.bare (symbol : Symbol) : Symbol := { symbol with type := symbol.type.map Ty.bare }

/-- A table without what is recorded for the names in types. -/
def SymbolTable.bare (table : SymbolTable) : SymbolTable := ⟨table.symbols.map Symbol.bare⟩

/-- Tables are the same if they are apart from the types, and the types are as well. -/
theorem SymbolTable.SameShape.bare_eq {left right : SymbolTable} (shape : left.SameShape right)
    (types : ∀ index, (left.type? index).map Ty.bare = (right.type? index).map Ty.bare) :
    left.bare = right.bare := by
  refine congrArg SymbolTable.mk (Array.ext_getElem? fun position => ?_)
  have entries := shape ⟨position⟩
  have known := types ⟨position⟩
  simp only [shape?, type?, symbol?] at entries known
  rw [Array.getElem?_map, Array.getElem?_map]
  cases found : left.symbols[position]? with
  | none =>
    rw [found] at entries
    rw [Option.map_eq_none_iff.mp entries.symm]
  | some symbol =>
    rw [found] at entries known
    obtain ⟨other, found', same⟩ := Option.map_eq_some_iff.mp entries.symm
    rw [found'] at known ⊢
    obtain ⟨name, kind, type, span, parent, children⟩ := symbol
    obtain ⟨name', kind', type', span', parent', children'⟩ := other
    -- only the types may differ, and `types` tells how much
    simp only [Symbol.withoutType, Symbol.mk.injEq] at same
    obtain ⟨rfl, rfl, -, rfl, rfl, rfl⟩ := same
    have typed : type.map Ty.bare = type'.map Ty.bare := known
    simp only [Option.map_some, Symbol.bare, typed]

namespace Resolving

theorem bare_walk {walk : Walk} (position : Nat) (nodes : List Node) :
    (Resolving.walk position nodes).Ends walk fun result _ =>
      Agree (Node.planAll nodes) (Node.planAll result.1) (Node.expressionsAll nodes)
        (Node.expressionsAll result.1) → Node.bareAll result.1 = Node.bareAll nodes := by
  refine Ends.bind_modify ((Node.bare_resolveAll nodes).bind fun nodes' after same => ?_)
  exact .bind_get (.pure same)

end Resolving

theorem Expr.bareType_eq (expressions : List Expr) : expressions.map Expr.bareType =
    ((expressions.map Expr.finding).map (Finding.map id Ty.bare)).map Finding.type := by
  rw [List.map_map, List.map_map]
  rfl

namespace Registered

theorem declarations_single {registered : Registered} {nodes : List Node} (files : registered.files = [nodes]) :
    registered.declarations = Node.declarationsAll nodes := by
  rw [declarations, files, List.flatMap_singleton]

/-- The names that stand for types in a unit are those that do in its plan. -/
theorem denotesStructs_plan {registered : Registered}
    (structs : ∀ sighting ∈ unitSightings registered.files, sighting.misnamedType = []) :
    registered.plan.DenotesStructs registered.environment := by
  rw [Plan.DenotesStructs, plan, plans, sightings_sequence]
  exact structs

variable {parsed nodes : List Node} (formed : WellFormedTrees [parsed])
  (files : (ofFiles [parsed]).files = [nodes])
include formed files

/-- A file that is a unit on its own can be walked over. -/
theorem awaits_single :
    (Walk.start (ofFiles [parsed]).table).Awaits (ofFiles [parsed]).table
      (.between (ofFiles [parsed]).declarations []) (Node.declarationsAll nodes)
      (Node.AllTypesAll (ofFiles [parsed]).table.BindsIn nodes)
      (Node.sightingsAll (ofFiles [parsed]).environment nodes) := by
  obtain ⟨tableTypes, fileTypes, isOpen⟩ := binds_ofFiles formed.unbound
  rw [files, List.forall_mem_singleton] at fileTypes
  rw [unitSightings, ← declarations, files] at isOpen
  have stands := (declares_declarations [parsed]).stands_start tableTypes
  refine ⟨stands, ?_, fileTypes, (List.forall_mem_append.mp isOpen).1⟩
  rw [declarations_single files]
  exact List.prefix_refl _

/-- A file that is a unit on its own can be walked over with completed types. -/
theorem isCompletable_single (distinct : HaveDistinctNames (ofFiles [parsed]).declarations)
    (structs : (ofFiles [parsed]).plan.DenotesStructs (ofFiles [parsed]).environment) :
    let plan := (Node.planAll nodes).bind (ofFiles [parsed]).environment
    Plan.IsCompletable (ofFiles [parsed]).table.lookupGlobal? (ofFiles [parsed]).written
        (ofFiles [parsed]).globalSymbols plan (ofFiles [parsed]).table.type? (ofFiles [parsed]).written ∧
      (ofFiles [parsed]).written.Grow
        (plan.step (fun _ => (ofFiles [parsed]).layout) (ofFiles [parsed]).written) := by
  obtain ⟨completes, sound⟩ := complete_start formed distinct structs
  have fits := wellScoped_boundPlan formed structs
  have fresh := @isFresh_boundPlans [parsed]
  have symbols := nodup_symbols_bindAll [parsed]
  -- there is one plan, which is the one of the file
  have plans : (ofFiles [parsed]).plans = [Node.planAll nodes] := by
    rw [Registered.plans, files, List.map_singleton]
  have single : Plan.bindAll (ofFiles [parsed]).environment [Node.planAll nodes] =
      [(Node.planAll nodes).bind (ofFiles [parsed]).environment] := rfl
  rw [boundPlan, plan, plans] at fits
  rw [boundPlans, plans, single, List.forall_mem_singleton] at fresh
  rw [plans, single, List.flatMap_singleton] at symbols
  exact ⟨⟨fits.1, fresh, .refl _, mem_globalSymbols_of_lookup (declares_declarations [parsed]), sound,
    completes⟩, fresh.grow_step symbols⟩

end Registered

/-- A unit of a single file is resolved as that file is. -/
theorem Resolved.ofRegistered_single {registered : Registered} {nodes settled : List Node}
    {errors : List ResolutionError} {after : Walk} (files : registered.files = [nodes])
    (run : (Resolving.file nodes).run (.start registered.table) = .ok ((settled, errors), after))
    (ends : Resolving.finish.Succeeds after fun _ last => last = after) :
    ofRegistered registered = .ok ⟨[settled], after.table, errors⟩ := by
  have resolves : (Resolving.file nodes).Succeeds (.start registered.table) fun result last =>
      result = (settled, errors) ∧ last = after := ⟨_, _, run, rfl, rfl⟩
  have whole : Resolving.Succeeds (do
        let files ← registered.files.mapM Resolving.file
        Resolving.finish
        return files) (.start registered.table) fun results last =>
      results = [(settled, errors)] ∧ last = after := by
    rw [files, List.mapM_cons, List.mapM_nil, bind_assoc]
    refine resolves.bind ?_
    rintro _ _ ⟨rfl, rfl⟩
    exact ends.bind fun _ _ same => .pure ⟨rfl, same⟩
  obtain ⟨_, _, ran, rfl, rfl⟩ := whole
  rw [ofRegistered, ran]
  exact congrArg (fun reported => Except.ok (Resolved.mk [settled] _ reported)) (List.append_nil errors)

/-- Another walk over a file from its start would report the same and come to the same tree and the same
table, apart from what is recorded for the names in types. -/
def Walk.IsFixedPoint (walk : Walk) (nodes : List Node) : Prop :=
  ∃ again deferred later, (Resolving.walk 0 nodes).run walk = .ok ((again, deferred), later) ∧
    later.errors.map ResolutionError.diagnostic = walk.errors.map ResolutionError.diagnostic ∧
    Node.bareAll again = Node.bareAll nodes ∧ later.table.bare = walk.table.bare

/-- If the run of the plan that another walk makes comes to the same, so does the walk. -/
theorem Walk.Finds.isFixedPoint {after later : Walk} {table : SymbolTable} {around : Environment} {plan : Plan}
    {settled again : List Node} {before : Types} {deferred : Nat}
    (finds : after.Finds table around plan settled before)
    (finds' : later.Finds table around plan again
      (plan.run (Types.layout table.lookupGlobal?) before).types)
    (same : plan.ComesToTheSame (Types.layout table.lookupGlobal?) table around before
      (plan.run (Types.layout table.lookupGlobal?) before).types)
    (shape : later.table.SameShape after.table)
    (run : (Resolving.walk 0 settled).run after = .ok ((again, deferred), later)) :
    after.IsFixedPoint settled := by
  refine ⟨again, deferred, later, run, ?_, bare_walk 0 settled _ _ run ?_, shape.bare_eq fun index => ?_⟩
  · rw [finds'.errors_eq, finds.errors_eq]
    exact same.errors_eq
  · refine ⟨finds'.plan_eq.trans finds.plan_eq.symm, ?_⟩
    rw [Expr.bareType_eq, Expr.bareType_eq, finds'.findings_eq, finds.findings_eq]
    exact congrArg _ same.findings_eq
  · have known : later.table.type? = _ := finds'.types_eq
    have before : after.table.type? = _ := finds.types_eq
    rw [known, before]
    exact same.types_eq index

/-- In a file that is a unit on its own, whose global names are distinct and whose named types denote
structs, the walks come to an end, and another one would come to the same. There are at most as many of
them as there are references in the file, and one more. -/
theorem file_settles_at_fixed_point (file : File)
    (distinct : (Registered.ofFiles [(Parsed.ofFile file).nodes]).HasDistinctGlobals)
    (structs : ∀ sighting ∈ unitSightings (Registered.ofFiles [(Parsed.ofFile file).nodes]).files,
      sighting.misnamedType = []) :
    let registered := Registered.ofFiles [(Parsed.ofFile file).nodes]
    ∃ nodes settled after count, registered.files = [nodes] ∧
      (Resolving.file nodes).run (.start registered.table) = .ok ((settled, after.errors), after) ∧
      Resolved.ofRegistered registered = .ok ⟨[settled], after.table, after.errors⟩ ∧
      (Resolving.fileCounting nodes).run (.start registered.table) =
        .ok (((settled, after.errors), count), after) ∧
      count ≤ (Node.references (Parsed.ofFile file).nodes).length + 1 ∧
      after.IsFixedPoint settled := by
  have each : ∀ node ∈ (Parsed.ofFile file).nodes, node.IsWellFormed := Parsed.isWellFormed_nodes file _
  generalize (Parsed.ofFile file).nodes = parsed at *
  have formed : WellFormedTrees [parsed] := List.forall_mem_singleton.mpr each
  obtain ⟨nodes, files, planned⟩ := List.map_eq_singleton_iff.mp (Registered.plans_ofFiles [parsed])
  have awaits := Registered.awaits_single formed files
  obtain ⟨completable, grow⟩ := Registered.isCompletable_single formed files distinct.names
    (Registered.denotesStructs_plan structs)
  have same := completable.comesToTheSame grow (Registered.ofFiles [parsed]).table
    (Registered.ofFiles [parsed]).environment
  have plain := Registered.isPlain_plan formed
  rw [Registered.plan, Registered.plans, files] at plain
  have steady := Plan.bind_bind plain.1 (Registered.ofFiles [parsed]).environment
  -- the walks that are made
  obtain ⟨⟨settled, errors⟩, after, run, passes, rfl, finds⟩ :=
    (file_succeeds awaits.stands awaits.fits awaits.types awaits.isOpen).and
      (file_finds plain.1 awaits.stands awaits.fits awaits.types awaits.isOpen)
  have counted := run
  rw [← fst_fileCounting] at counted
  obtain ⟨⟨_, count⟩, counted, rfl⟩ := exists_of_map counted
  have bound := fileCounting_ends awaits.stands awaits.fits awaits.types awaits.isOpen _ _ counted
  -- the walk behind them
  obtain ⟨⟨again, deferred⟩, later, further, passes', rfl, finds'⟩ :=
    walk_again awaits.stands.inside awaits.fits steady passes finds
  rw [finds.types_eq] at finds'
  have shape : later.table.SameShape after.table := fun index =>
    (passes'.stands.tracks.shape index).trans (passes.stands.tracks.shape index).symm
  refine ⟨nodes, settled, after, count, files, run, ?_, counted, ?_,
    finds.isFixedPoint finds' same shape further⟩
  · refine Resolved.ofRegistered_single files run
      ((Registered.declares_declarations [parsed]).finish_succeeds ?_)
    have stands := passes.stands
    rwa [Place.declare_between, List.nil_append, ← Registered.declarations_single files] at stands
  · rwa [Node.length_references, planned, Plan.referenceCount_number, ← Node.length_references] at bound

/-- A file in which the type of a binding is not known when the binding is used, and is copied before the
struct in it is looked up. -/
def copiedLate : File :=
  ⟨.anonymous,
    "let x = first.x\nlet first = last\nlet last: S = ---\nstruct S \x7b x: int \x7d".toList, 1⟩

/-- The file is walked over twice, and another walk would come to the same. -/
theorem copied_late_settles :
    let registered := Registered.ofFiles [(Parsed.ofFile copiedLate).nodes]
    registered.HasDistinctGlobals ∧
      (∀ sighting ∈ unitSightings registered.files, sighting.misnamedType = []) ∧
      ∃ nodes settled after, registered.files = [nodes] ∧
        (Resolving.fileCounting nodes).run (.start registered.table) =
          .ok (((settled, after.errors), 2), after) ∧
        after.IsFixedPoint settled := by
  -- all is evaluated at once, as this evaluates the registration of the file only once
  have evaluated : (Registered.ofFiles [(Parsed.ofFile copiedLate).nodes]).HasDistinctGlobals ∧
      (∀ sighting ∈ unitSightings (Registered.ofFiles [(Parsed.ofFile copiedLate).nodes]).files,
        sighting.misnamedType = []) ∧
      (Registered.ofFiles [(Parsed.ofFile copiedLate).nodes]).files.map (fun nodes =>
        ((Resolving.fileCounting nodes).run
          (.start (Registered.ofFiles [(Parsed.ofFile copiedLate).nodes]).table)).toOption.map
            fun result => result.1.2) = [some 2] := by
    unfold Registered.HasDistinctGlobals
    decide +kernel
  obtain ⟨distinct, structs, walks⟩ := evaluated
  obtain ⟨nodes, settled, after, count, files, _, _, counted, _, fixed⟩ :=
    file_settles_at_fixed_point copiedLate distinct structs
  rw [files, List.map_singleton, counted] at walks
  obtain rfl : count = 2 := Option.some.inj (List.cons.inj walks).1
  exact ⟨distinct, structs, nodes, settled, after, files, counted, fixed⟩

end Cadence
