import Cadence.Proofs.Resolution.Completion
import Cadence.Proofs.Resolution.Frame

/-!
# Accesses of fields

In a unit without errors, an access of a field is of the type of that field whenever the type of what
the field is asked of was found out. Whether it was found out is not reported: nothing is said about an
access of a field of something whose type is not known.
-/
namespace Cadence

open Source (File)

namespace Plan

variable {layout : Ty → Layout}

/-- Every access is of the type that the field has where the fields of values are looked up. -/
theorem run_access (plan : Plan) (types : Types) :
    ∀ finding ∈ (plan.run (fun _ => layout) types).findings, ∀ target field,
      finding.usage = .access target field →
        finding.type = (target.elim .unknown layout).fieldType? field ∧
          (target.elim .unknown layout).missing field ⊆ (plan.run (fun _ => layout) types).missing := by
  -- an access is found out about where it stands; every other plan only passes on what its parts find
  induction plan generalizing types with
  | value | stated | external | struct => nofun
  | reference span name symbol =>
    intro finding member target field access
    obtain rfl := List.mem_singleton.mp member
    cases access
  | field span inner name ih =>
    intro finding member target field access
    rcases List.mem_append.mp member with old | new
    · exact (ih types finding old target field access).imp_right
        fun missing => List.subset_append_of_subset_left _ missing
    · obtain rfl := List.mem_singleton.mp new
      cases access
      exact ⟨rfl, List.subset_append_right _ _⟩
  | expression span inner ih =>
    intro finding member target field access
    rcases List.mem_append.mp member with old | new
    · exact ih types finding old target field access
    · obtain rfl := List.mem_singleton.mp new
      cases access
  | procedure head body ih => exact ih _
  | binding head initial ih => exact ih types
  | combine rule first second ihFirst ihSecond =>
    intro finding member target field access
    rcases List.mem_append.mp member with inFirst | inSecond
    · exact (ihFirst _ finding inFirst target field access).imp_right
        fun missing => List.subset_append_of_subset_left _ missing
    · exact (ihSecond _ finding inSecond target field access).imp_right
        fun missing => List.subset_append_of_subset_right _ missing

/-- What is found out in the end about a tree is found out in a walk over it. -/
theorem SettleAll.exists_run {layouts : Types → Ty → Layout} {plans : List Plan} {start final : Types}
    {outcomes : List Outcome} (settle : SettleAll layouts plans start outcomes final) :
    ∀ last ∈ outcomes, ∃ plan ∈ plans, ∃ types, last = plan.run layouts types := by
  induction settle with
  | nil => nofun
  | cons first _ ih =>
    obtain ⟨count, ran, _⟩ := first
    refine List.forall_mem_cons.mpr ⟨⟨_, List.mem_cons_self, _, ran⟩, fun last member => ?_⟩
    obtain ⟨plan, present, found⟩ := ih last member
    exact ⟨plan, List.mem_cons_of_mem _ present, found⟩

end Plan

namespace Layout

/-- A layout apart from what is recorded for the names in it. -/
def bare (layout : Layout) : Layout := layout.mapNames fun _ _ => none

theorem bare_mapNames {change : Identifier → Option SymbolIndex → Option SymbolIndex} (layout : Layout) :
    (layout.mapNames change).bare = layout.bare := by
  cases layout with
  | struct name fields =>
    simp only [bare, mapNames, Ty.mapFieldNames_eq, List.map_map, Function.comp_def, Ty.mapNames_mapNames]
  | notAStruct | unknown => rfl

/-- If it is known what the fields are and the one that is asked for is not missing, its type is known. -/
theorem exists_fieldType {layout : Layout} {field : Identifier} (known : layout ≠ unknown)
    (present : layout.missing field = []) : ∃ type, layout.fieldType? field = some type := by
  cases layout with
  | struct name fields =>
    simp only [missing] at present
    split at present
    next isSome =>
      obtain ⟨found, chosen⟩ := Option.isSome_iff_exists.mp isSome
      exact ⟨found.2, by rw [fieldType?, chosen]; rfl⟩
    next => cases present
  | notAStruct => cases present
  | unknown => exact absurd rfl known

end Layout

/-- Where the names in a type mean structs, its fields are known. They are the same whether all names
that are written down were looked up or not. -/
theorem Types.layout_complete_bare {written types : Types} {globals : String → Option SymbolIndex}
    (kept : written.Grow types) {type : Ty} (means : type.AllNames (written.MeansStruct globals)) :
    written.layout globals (type.complete globals) ≠ .unknown ∧
      (written.layout globals (type.complete globals)).bare = (types.layout globals type).bare := by
  cases type with
  | struct name fields => exact ⟨by rintro ⟨⟩, Layout.bare_mapNames (.struct name fields)⟩
  | builtin | pointer | procedure => exact ⟨by rintro ⟨⟩, rfl⟩
  | named path symbol =>
    obtain ⟨index, name, fields, chosen, known⟩ := means
    have final := kept index _ known
    have left : written.layout globals (Ty.named path symbol |>.complete globals) = .struct name fields := by
      simp only [Ty.complete, Ty.mapNames, layout, chosen, Option.some_or, known, Layout.ofDeclared]
    have right : types.layout globals (.named path symbol) = .struct name fields := by
      simp only [layout, chosen, Option.mem_def.mp final, Layout.ofDeclared]
    rw [left, right]
    exact ⟨by rintro ⟨⟩, rfl⟩

/-- The names in the types that come up at expressions mean structs. -/
theorem Registered.grounded_findings {files : List (List Node)} (formed : WellFormedTrees files)
    (distinct : HaveDistinctNames (ofFiles files).declarations)
    (structs : (ofFiles files).plan.DenotesStructs (ofFiles files).environment) {resolved : Resolved}
    {outcomes : List Outcome} (runs : resolved.Runs (ofFiles files) outcomes) :
    ∀ last ∈ outcomes, ∀ finding ∈ last.findings, ∀ type ∈ finding.types,
      type.Grounded (knownBehind (ofFiles files).globalSymbols (ofFiles files).boundPlan.entries)
        ((ofFiles files).written.MeansStruct (ofFiles files).table.lookupGlobal?) := by
  have fits : (ofFiles files).boundPlan.WellScoped
      ((ofFiles files).written.MeansStruct (ofFiles files).table.lookupGlobal?) _ :=
    (wellScoped_boundPlan formed structs).mono (fun _ => id) fun _ _ => Types.NamesStruct.means
  rw [boundPlan_eq] at fits ⊢
  exact (runs.settle.grounded fits (mem_globalSymbols_of_lookup (declares_declarations files))
    (complete_start formed distinct structs).2).2

/-- The type of a field of a value, by what is known in the end. -/
def Resolved.fieldType? (resolved : Resolved) (type : Ty) (field : Identifier) : Option Ty :=
  (Types.layout resolved.table.lookupGlobal? resolved.table.type? type).fieldType? field

/-- In a unit without errors whose global names are distinct, an access of a field in the trees that were
registered has a type if and only if what the field is asked of has one, and it is the type of that
field then. -/
theorem accesses_have_types_of_fields (files : List File) :
    let registered := Registered.ofFiles (treesOf files)
    ∃ resolved, Resolved.ofRegistered registered = .ok resolved ∧
      resolved.files.map Node.frameAll = registered.files.map Node.frameAll ∧
      (registered.HasDistinctGlobals → resolved.errors = [] →
        ∀ expression ∈ resolved.files.flatMap Node.expressionsAll, ∀ target field,
          expression.form = .field target field →
            (target.type = none → expression.type = none) ∧
            ∀ type ∈ target.type, ∃ found, resolved.fieldType? type field = some found ∧
              expression.type.map Ty.bare = some found.bare) := by
  dsimp only
  have formed := wellFormed_treesOf files
  obtain ⟨resolved, run, completes, outcomes, runs⟩ := Resolved.exists_settled formed
  have framed := Resolved.map_frameAll_files formed run
  refine ⟨resolved, run, framed, fun distinct right expression member target field access => ?_⟩
  generalize treesOf files = trees at *
  obtain ⟨misnamed, missing⟩ := runs.errors_eq_nil_iff.mp right
  have structs := Plan.denotesStructs_of_misnamed misnamed
  obtain ⟨outcomes', final', settle, finds, _⟩ := Registered.exists_completed formed distinct.names structs runs
  -- what is found out about the access is found out in a walk with all names looked up as well
  obtain ⟨last, ran, found⟩ := runs.exists_outcome member
  obtain ⟨last', ran', findings, missing'⟩ := exists_mem_related finds ran
  obtain ⟨plan, _, types, rfl⟩ := settle.exists_run last' ran'
  have completed : expression.finding.map id (Ty.complete _) ∈ _ :=
    findings ▸ List.mem_map_of_mem found
  have usage : (expression.finding.map id (Ty.complete (Registered.ofFiles trees).table.lookupGlobal?)).usage =
      .access (target.type.map (Ty.complete (Registered.ofFiles trees).table.lookupGlobal?)) field := by
    simp [Finding.map, Expr.finding, access, Form.usage, Usage.map]
  obtain ⟨typed, absent⟩ := plan.run_access types _ completed _ _ usage
  rw [missing', List.flatMap_eq_nil_iff.mp missing last ran, List.subset_nil] at absent
  refine ⟨fun unknown => ?_, fun type asked => ?_⟩
  · rw [unknown] at typed
    exact Option.map_eq_none_iff.mp typed
  · rw [Option.mem_def.mp asked] at typed absent
    have known : type ∈ expression.finding.types := by
      simp [Expr.finding, Finding.types, access, Form.usage, Option.mem_def.mp asked]
    have means := (Registered.grounded_findings formed distinct.names structs runs last ran _ found type
      known).allNames
    obtain ⟨isKnown, same⟩ := Types.layout_complete_bare runs.written_grow means
    obtain ⟨fieldType, present⟩ := Layout.exists_fieldType isKnown absent
    have bare := congrArg (Layout.fieldType? · field) same
    simp only [Layout.bare, Layout.fieldType?_mapNames] at bare
    rw [present] at bare
    obtain ⟨found, looked, agrees⟩ := Option.map_eq_some_iff.mp bare.symm
    have lookup : resolved.table.lookupGlobal? = (Registered.ofFiles trees).table.lookupGlobal? :=
      funext completes.shape.lookupGlobal?
    refine ⟨found, by rw [Resolved.fieldType?, lookup]; exact looked, ?_⟩
    -- completing a type changes nothing about it but what is recorded for its names
    have typed' : expression.type.map (Ty.complete _) = some fieldType := typed.trans present
    obtain ⟨type, own, rfl⟩ := Option.map_eq_some_iff.mp typed'
    rw [own, Option.map_some, Ty.bare, agrees, Ty.complete]
    exact congrArg some (Ty.bare_mapNames type).symm

/-- A file that asks for a field of a binding of a later file. -/
def asksAhead : File := ⟨.anonymous, "let size = origin.size".toList, 1⟩

/-- The later file, in which the binding is found to be a struct without that field. -/
def foundBehind : File := ⟨.anonymous, "struct Point \x7b x: s32 \x7d\nlet origin = Point".toList, 24⟩

/-- Nothing is reported about the access, and it has no type. -/
theorem access_ahead_reports_nothing :
    (Parsed.ofFile asksAhead).errors = [] ∧ (Parsed.ofFile foundBehind).errors = [] ∧
    ∃ resolved, Resolved.ofRegistered (Registered.ofFiles (treesOf [asksAhead, foundBehind])) = .ok resolved ∧
      resolved.errors = [] ∧
      ∃ expression ∈ resolved.files.flatMap Node.expressionsAll, ∃ target field,
        expression.form = .field target field ∧ expression.type = none := by
  -- all is evaluated at once, as this reads the files only once
  have evaluated : ((Parsed.ofFile asksAhead).errors = [] ∧ (Parsed.ofFile foundBehind).errors = []) ∧
      (match Resolved.ofRegistered (Registered.ofFiles (treesOf [asksAhead, foundBehind])) with
      | .ok resolved => resolved.errors.isEmpty &&
          (resolved.files.flatMap Node.expressionsAll).any fun expression =>
            match expression.form with
            | .field _ _ => expression.type.isNone
            | _ => false
      | .error _ => false) = true := by
    decide +kernel
  obtain ⟨⟨parsedAhead, parsedBehind⟩, evaluated⟩ := evaluated
  refine ⟨parsedAhead, parsedBehind, ?_⟩
  split at evaluated
  next resolved run =>
    obtain ⟨right, found⟩ := Bool.and_eq_true_iff.mp evaluated
    obtain ⟨expression, member, access⟩ := List.any_eq_true.mp found
    refine ⟨resolved, run, List.isEmpty_iff.mp right, expression, member, ?_⟩
    split at access
    next target field form => exact ⟨target, field, form, Option.isNone_iff_eq_none.mp access⟩
    next => cases access
  next => cases evaluated

end Cadence
