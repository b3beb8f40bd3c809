import Cadence.Proofs.Plan.Growth
import Mathlib.Logic.Equiv.Defs

/-!
# Runs do not depend on which symbols there are

The parts of a declaration are changed together: other symbols for what is declared, and other types
for what is written down. A plan in which all symbols are exchanged for others finds out the same
about the others.
-/
namespace Cadence

variable {σ : SymbolIndex → SymbolIndex} {change : Identifier → Option SymbolIndex → Option SymbolIndex}

def Spanned.map {α β : Type} (change : α → β) (spanned : Spanned α) : Spanned β :=
  ⟨change spanned.value, spanned.span⟩

section Heads

variable (σ : SymbolIndex → SymbolIndex) (change : Ty → Ty)

def Member.map (member : Member) : Member :=
  { member with type := member.type.map change, symbol := member.symbol.map σ }

def ProcedureHead.map (head : ProcedureHead) : ProcedureHead :=
  { head with
    parameters := head.parameters.map (Member.map σ change)
    result := head.result.map (Spanned.map change)
    symbol := head.symbol.map σ }

def Struct.map (struct : Struct) : Struct :=
  { struct with
    fields := struct.fields.map (Member.map σ change)
    symbol := struct.symbol.map σ }

def BindingHead.map (head : BindingHead) : BindingHead :=
  { head with type := head.type.map (Spanned.map change), symbol := head.symbol.map σ }

/-- The entries for other symbols and types. -/
def mapEntries (entries : List (SymbolIndex × Option Ty)) : List (SymbolIndex × Option Ty) :=
  entries.map fun entry => (σ entry.1, entry.2.map change)

theorem entryOf_map (symbol : Option SymbolIndex) (type : Option Ty) :
    entryOf (symbol.map σ) (type.map change) = mapEntries σ change (entryOf symbol type) := by
  cases symbol <;> rfl

theorem Member.entries_map (members : List Member) :
    Member.entries (members.map (Member.map σ change)) =
      mapEntries σ change (Member.entries members) := by
  induction members with
  | nil => rfl
  | cons first rest ih =>
    have own := entryOf_map σ change first.symbol (some first.type.value)
    simp only [Member.entries, List.map_cons, List.flatMap_cons, mapEntries, List.map_append] at ih ⊢
    rw [ih]
    exact congrArg (· ++ _) own

theorem BindingHead.entries_map (head : BindingHead) (found : Option Ty) :
    (head.map σ change).entries (found.map change) =
      mapEntries σ change (head.entries found) := by
  rw [entries, entries, ← entryOf_map, map]
  dsimp only
  cases head.type <;> rfl

variable {σ change} {τ : SymbolIndex → SymbolIndex} {further : Ty → Ty} {holds holds' : Ty → Prop}

theorem Member.map_map (members : List Member) :
    (members.map (Member.map σ change)).map (Member.map τ further) =
      members.map (Member.map (τ ∘ σ) (further ∘ change)) := by
  rw [List.map_map]
  refine List.map_congr_left fun member _ => ?_
  simp [map, Spanned.map]

theorem Member.map_congr {members : List Member} (types : ∀ member ∈ members, holds member.type.value)
    (same : ∀ type, holds type → change type = further type) :
    members.map (Member.map σ change) = members.map (Member.map σ further) := by
  refine List.map_congr_left fun member present => ?_
  simp only [map, Spanned.map, same _ (types member present)]

theorem ProcedureHead.map_map (head : ProcedureHead) :
    (head.map σ change).map τ further = head.map (τ ∘ σ) (further ∘ change) := by
  simp only [map, Member.map_map, Option.map_map]
  rfl

theorem ProcedureHead.map_congr {head : ProcedureHead} (types : head.AllTypes holds)
    (same : ∀ type, holds type → change type = further type) :
    head.map σ change = head.map σ further := by
  have result : head.result.map (Spanned.map change) = head.result.map (Spanned.map further) :=
    Option.map_congr fun annotated present => by
      simp only [Spanned.map, same _ (types.2 annotated present)]
  simp only [map, Member.map_congr types.1 same, result]

theorem ProcedureHead.allTypes_map {head : ProcedureHead} (types : head.AllTypes holds)
    (implies : ∀ type, holds type → holds' (change type)) : (head.map σ change).AllTypes holds' := by
  constructor
  · intro parameter present
    obtain ⟨parameter, member, rfl⟩ := List.mem_map.mp present
    exact implies _ (types.1 parameter member)
  · intro result present
    obtain ⟨result, member, rfl⟩ := Option.map_eq_some_iff.mp present
    exact implies _ (types.2 result member)

theorem Struct.map_map (struct : Struct) :
    (struct.map σ change).map τ further = struct.map (τ ∘ σ) (further ∘ change) := by
  simp only [map, Member.map_map, Option.map_map]

theorem Struct.map_congr {struct : Struct} (types : struct.AllTypes holds)
    (same : ∀ type, holds type → change type = further type) :
    struct.map σ change = struct.map σ further := by
  simp only [map, Member.map_congr types same]

theorem Struct.allTypes_map {struct : Struct} (types : struct.AllTypes holds)
    (implies : ∀ type, holds type → holds' (change type)) : (struct.map σ change).AllTypes holds' := by
  intro field present
  obtain ⟨field, member, rfl⟩ := List.mem_map.mp present
  exact implies _ (types field member)

theorem BindingHead.map_map (head : BindingHead) :
    (head.map σ change).map τ further = head.map (τ ∘ σ) (further ∘ change) := by
  simp only [map, Option.map_map]
  rfl

theorem BindingHead.map_congr {head : BindingHead} (types : head.AllTypes holds)
    (same : ∀ type, holds type → change type = further type) :
    head.map σ change = head.map σ further := by
  have written : head.type.map (Spanned.map change) = head.type.map (Spanned.map further) :=
    Option.map_congr fun annotated present => by
      simp only [Spanned.map, same _ (types annotated present)]
  simp only [map, written]

theorem BindingHead.allTypes_map {head : BindingHead} (types : head.AllTypes holds)
    (implies : ∀ type, holds type → holds' (change type)) : (head.map σ change).AllTypes holds' := by
  intro type present
  obtain ⟨type, member, rfl⟩ := Option.map_eq_some_iff.mp present
  exact implies _ (types type member)

end Heads

theorem ProcedureHead.type_map (head : ProcedureHead) :
    (head.map σ (Ty.mapNames change)).type = head.type.mapNames change := by
  simp only [type, map, Ty.mapNames, Ty.mapParameterNames_eq, List.map_map]
  cases head.result <;> rfl

theorem Struct.type_map (struct : Struct) :
    (struct.map σ (Ty.mapNames change)).type = struct.type.mapNames change := by
  simp only [type, map, Ty.mapNames, Ty.mapFieldNames_eq, List.map_map]
  rfl

theorem ProcedureHead.entries_map (head : ProcedureHead) :
    (head.map σ (Ty.mapNames change)).entries = mapEntries σ (Ty.mapNames change) head.entries := by
  rw [entries, type_map]
  exact entryOf_map σ (Ty.mapNames change) head.symbol (some head.type)

theorem Struct.entries_map (struct : Struct) :
    (struct.map σ (Ty.mapNames change)).entries = mapEntries σ (Ty.mapNames change) struct.entries := by
  rw [entries, type_map]
  exact entryOf_map σ (Ty.mapNames change) struct.symbol (some struct.type)

/-- How types are put together does not depend on the names in them. -/
theorem Rule.type_mapNames (rule : Rule) (left right : Option Ty) :
    rule.type (left.map (Ty.mapNames change)) (right.map (Ty.mapNames change)) =
      (rule.type left right).map (Ty.mapNames change) := by
  cases rule with
  | nothing | first | second => rfl
  | result => rcases left with _ | _ | _ | _ | _ | _ <;> rfl
  | binary operator =>
    simp only [Rule.type, Operator.binaryType]
    split <;> rfl
  | unary operator =>
    simp only [Rule.type, Operator.unaryType]
    split
    · rfl
    · cases left <;> rfl
    · rcases left with _ | _ | _ | _ | _ | _ <;> rfl
    · rfl

namespace Layout

/-- The layout with other symbols recorded for the names in it. -/
def mapNames (change : Identifier → Option SymbolIndex → Option SymbolIndex) : Layout → Layout
  | struct name fields => struct name (Ty.mapFieldNames change fields)
  | notAStruct => notAStruct
  | unknown => unknown

theorem find_mapFieldNames (fields : List (String × Ty)) (field : Identifier) :
    ((Ty.mapFieldNames change fields).find? fun candidate => candidate.1 = field.value) =
      (fields.find? fun candidate => candidate.1 = field.value).map
        fun found => (found.1, found.2.mapNames change) := by
  rw [Ty.mapFieldNames_eq, List.find?_map]
  rfl

theorem fieldType?_mapNames (layout : Layout) (field : Identifier) :
    (layout.mapNames change).fieldType? field =
      (layout.fieldType? field).map (Ty.mapNames change) := by
  cases layout with
  | struct name fields => simp [mapNames, fieldType?, find_mapFieldNames, Function.comp_def]
  | notAStruct | unknown => rfl

theorem missing_mapNames (layout : Layout) (field : Identifier) :
    (layout.mapNames change).missing field = layout.missing field := by
  cases layout with
  | struct name fields => simp only [mapNames, missing, find_mapFieldNames, Option.isSome_map]
  | notAStruct | unknown => rfl

theorem ofDeclared_map (type : Option Ty) :
    ofDeclared (type.map (Ty.mapNames change)) = (ofDeclared type).mapNames change := by
  rcases type with _ | _ | _ | _ | _ | _ <;> rfl

end Layout

/-- The same usage of other symbols and types. -/
def Usage.map (σ : SymbolIndex → SymbolIndex) (change : Ty → Ty) : Usage → Usage
  | reference symbol => reference (symbol.map σ)
  | access target field => access (target.map change) field
  | other => other

theorem Usage.eq_reference_of_map {σ : SymbolIndex → SymbolIndex} {change : Ty → Ty} {usage : Usage}
    {symbol : Option SymbolIndex} (same : usage.map σ change = .reference symbol) :
    ∃ former, usage = .reference former ∧ former.map σ = symbol := by
  cases usage with
  | reference former => exact ⟨former, rfl, Usage.reference.inj same⟩
  | access | other => cases same

def Finding.map (σ : SymbolIndex → SymbolIndex) (change : Ty → Ty) (finding : Finding) : Finding where
  span := finding.span
  usage := finding.usage.map σ change
  type := finding.type.map change

theorem Finding.map_comp_map (σ τ : SymbolIndex → SymbolIndex) (change further : Ty → Ty) :
    Finding.map τ further ∘ Finding.map σ change = Finding.map (τ ∘ σ) (further ∘ change) := by
  funext ⟨span, usage, type⟩
  cases usage <;> simp [map, Usage.map]

theorem Finding.isDeferred_map (σ : SymbolIndex → SymbolIndex) (change : Ty → Ty)
    (finding : Finding) : (finding.map σ change).isDeferred = finding.isDeferred := by
  obtain ⟨span, usage, type⟩ := finding
  rcases usage with symbol | _ | _
  · cases symbol <;> cases type <;> rfl
  · cases type <;> rfl
  · cases type <;> rfl

namespace Plan

/-- The plan with other symbols, both for what is declared and for what is used. -/
def rename (σ : SymbolIndex → SymbolIndex) : Plan → Plan
  | value type => value type
  | stated type => stated (type.rename σ)
  | reference span name symbol => reference span name (symbol.map σ)
  | .field span target name => .field span (target.rename σ) name
  | expression span inner => expression span (inner.rename σ)
  | external head => external (head.map σ (Ty.rename σ))
  | procedure head body => procedure (head.map σ (Ty.rename σ)) (body.rename σ)
  | struct declared => struct (declared.map σ (Ty.rename σ))
  | binding head initial => binding (head.map σ (Ty.rename σ)) (initial.rename σ)
  | combine rule first second => combine rule (first.rename σ) (second.rename σ)

theorem rename_rename (τ : SymbolIndex → SymbolIndex) (plan : Plan) :
    (plan.rename σ).rename τ = plan.rename (τ ∘ σ) := by
  have types : Ty.rename τ ∘ Ty.rename σ = Ty.rename (τ ∘ σ) := funext (Ty.rename_rename τ)
  induction plan with
  | value => rfl
  | stated type => exact congrArg stated (Ty.rename_rename τ type)
  | reference span name symbol => simp [rename]
  | field span target name ih => exact congrArg (Plan.field span · name) ih
  | expression span inner ih => exact congrArg (expression span) ih
  | external head => simp [rename, ProcedureHead.map_map, types]
  | procedure head body ih => simp [rename, ProcedureHead.map_map, types, ih]
  | struct declared => simp [rename, Struct.map_map, types]
  | binding head initial ih => simp [rename, BindingHead.map_map, types, ih]
  | combine rule first second ihFirst ihSecond => simp [rename, ihFirst, ihSecond]

@[simp]
theorem rename_id (plan : Plan) : plan.rename id = plan := by
  have types : Ty.rename id = id := funext Ty.rename_id
  have members : Member.map id id = id := funext fun member => by simp [Member.map, Spanned.map]
  have annotated : Spanned.map (id : Ty → Ty) = id := rfl
  induction plan with
  | value => rfl
  | stated type => exact congrArg stated type.rename_id
  | reference span name symbol => simp [rename]
  | field span target name ih => exact congrArg (Plan.field span · name) ih
  | expression span inner ih => exact congrArg (expression span) ih
  | external head => simp [rename, ProcedureHead.map, types, members, annotated]
  | procedure head body ih => simp [rename, ProcedureHead.map, types, members, annotated, ih]
  | struct declared => simp [rename, Struct.map, types, members]
  | binding head initial ih => simp [rename, BindingHead.map, types, annotated, ih]
  | combine rule first second ihFirst ihSecond => simp [rename, ihFirst, ihSecond]

end Plan

section Renaming

variable (σ : Equiv.Perm SymbolIndex)

/-- The types of the symbols in the place of others. -/
def Types.rename (types : Types) : Types := fun index => (types (σ.symm index)).map (Ty.rename σ)

def Outcome.rename (outcome : Outcome) : Outcome where
  types := outcome.types.rename σ
  type := outcome.type.map (Ty.rename σ)
  findings := outcome.findings.map (Finding.map σ (Ty.rename σ))
  missing := outcome.missing

theorem Types.rename_record (types : Types) (entries : List (SymbolIndex × Option Ty)) :
    (types.record entries).rename σ =
      (types.rename σ).record (mapEntries σ (Ty.rename σ) entries) := by
  induction entries generalizing types with
  | nil => rfl
  | cons first rest ih =>
    have step : Types.rename σ (Function.update types first.1 first.2) =
        Function.update (types.rename σ) (σ first.1) (first.2.map (Ty.rename σ)) := by
      funext index
      by_cases own : index = σ first.1
      · subst own
        simp [Types.rename]
      · have other : σ.symm index ≠ first.1 := fun same => own (by rw [← same, σ.apply_symm_apply])
        simp [Types.rename, Function.update_of_ne own, Function.update_of_ne other]
    change Types.rename σ (Types.record _ rest) = Types.record _ (mapEntries σ (Ty.rename σ) rest)
    rw [ih, step]

/-- The plan with all symbols exchanged finds out the same about the others. -/
theorem Plan.run_rename {layout layout' : Ty → Layout}
    (layouts : ∀ type, layout' (type.rename σ) = (layout type).mapNames fun _ symbol => symbol.map σ)
    (plan : Plan) {holds : Ty → Prop} (written : plan.AllWritten holds) (types : Types) :
    (plan.rename σ).run (fun _ => layout') (types.rename σ) =
      (plan.run (fun _ => layout) types).rename σ := by
  induction plan generalizing types with
  | value type =>
    -- the types of literals have no names that could change
    have same : type.map (Ty.rename σ) = type := by
      cases type with
      | none => rfl
      | some type => exact congrArg some (Ty.mapNames_eq_self ((written type rfl).mono fun _ _ => False.elim))
    simp [rename, run, Outcome.plain, Outcome.rename, same]
  | stated type => rfl
  | reference span name symbol =>
    have known : (symbol.map σ).bind (types.rename σ) = (symbol.bind types).map (Ty.rename σ) := by
      cases symbol with
      | none => rfl
      | some index => simp [Types.rename]
    simp [rename, run, Outcome.rename, known, Finding.map, Usage.map]
  | field span target name ih =>
    have inner := ih written types
    -- the fields that are found have renamed types, and the same are missing
    have layoutOf (type : Option Ty) : (type.map (Ty.rename σ)).elim .unknown layout' =
        (type.elim .unknown layout).mapNames fun _ symbol => symbol.map σ := by
      cases type with
      | none => rfl
      | some type => exact layouts type
    simp only [rename, run, inner, Outcome.access, Outcome.rename, layoutOf,
      Layout.fieldType?_mapNames, Layout.missing_mapNames]
    simp [Finding.map, Usage.map, Ty.rename]
  | expression span inner ih =>
    have inner := ih written types
    simp [rename, run, inner, Outcome.finding, Outcome.rename, Finding.map, Usage.map]
  | external head =>
    simp only [rename, run, Outcome.plain, Outcome.rename, Types.rename_record]
    congr 2
    exact head.entries_map
  | procedure head body ih =>
    have entries : (head.map σ (Ty.rename σ)).entries ++
        Member.entries (head.map σ (Ty.rename σ)).parameters =
          mapEntries σ (Ty.rename σ) (head.entries ++ Member.entries head.parameters) := by
      rw [mapEntries, List.map_append]
      exact congr (congrArg _ head.entries_map) (Member.entries_map σ _ head.parameters)
    have inner := ih written.2 (types.record (head.entries ++ Member.entries head.parameters))
    rw [Types.rename_record, ← entries] at inner
    simp [rename, run, inner, Outcome.declaring, Outcome.rename]
  | struct declared =>
    simp only [rename, run, Outcome.plain, Outcome.rename, Types.rename_record]
    congr 2
    rw [mapEntries, List.map_append]
    exact congr (congrArg _ (Member.entries_map σ _ declared.fields)) declared.entries_map
  | binding head initial ih =>
    have inner := ih written.2 types
    have entries := head.entries_map σ (Ty.rename σ) (initial.run (fun _ => layout) types).type
    simp only [rename, run, inner, Outcome.declaring, Outcome.rename, Types.rename_record, entries]
    rfl
  | combine rule first second ihFirst ihSecond =>
    have left := ihFirst written.1 types
    have right := ihSecond written.2 (first.run (fun _ => layout) types).types
    simp only [rename, run, left, Outcome.rename, Outcome.combine] at right ⊢
    simp only [right, List.map_append]
    congr 1
    exact rule.type_mapNames _ _

end Renaming

end Cadence
