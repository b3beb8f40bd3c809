import Cadence.Proofs.Plan.Settling
import Cadence.Proofs.Plan.Sightings
import Cadence.Proofs.Symbol.Placement

/-!
# What a walk reports

The rule of scoping decides which names are reported, and what is found out about the targets of accesses
decides which fields are. So the plan of a tree and the types that a walk over it starts from fix what the
walk reports, and in which order.
-/
namespace Cadence

open Source (Span)

/-- The misuse of a name that an error reports. -/
def ResolutionError.misnaming? : ResolutionError → Option Misnaming
  | undefinedName name _ => some ⟨.e020, name⟩
  | notAType name _ => some ⟨.e021, name⟩
  | noFields _ _ _ | undefinedField _ _ _ => none

/-- The field that an error reports not to be there. -/
def ResolutionError.missing? : ResolutionError → Option Misnaming
  | noFields field _ _ => some ⟨.e022, field⟩
  | undefinedField _ field _ => some ⟨.e023, field⟩
  | undefinedName _ _ | notAType _ _ => none

/-- Where a symbol was declared. -/
def SymbolTable.place (table : SymbolTable) (symbol : Option SymbolIndex) : Span :=
  ((symbol.bind table.symbol?).map Symbol.span).getD .unknown

theorem SymbolTable.SameShape.place {left right : SymbolTable} (same : left.SameShape right)
    (symbol : Option SymbolIndex) : left.place symbol = right.place symbol := by
  cases symbol with
  | none => rfl
  | some index =>
    have spans : (left.symbol? index).map Symbol.span = (right.symbol? index).map Symbol.span := by
      simpa [shape?, Function.comp_def, Symbol.withoutType] using congrArg (Option.map Symbol.span) (same index)
    simp only [SymbolTable.place, Option.bind_some, spans]

namespace Environment

/-- A name that may have been meant where one is written that denotes nothing. -/
def lookalike? (around : Environment) (name : String) : Option String :=
  around.names.find? (isLookalike name)

/-- What is reported about a name that stands for a value. -/
def referenceErrors (around : Environment) (name : Identifier) : List ResolutionError :=
  match around.headingOf? name.value with
  | some _ => []
  | none => [.undefinedName name (around.lookalike? name.value)]

/-- What is reported about a name that stands for a type. -/
def typeErrors (around : Environment) (table : SymbolTable) (path : Identifier) :
    List ResolutionError :=
  match around.headingOf? path.value with
  | some heading =>
    if heading.kind = .struct then [] else [.notAType path (table.place heading.symbol)]
  | none => [.undefinedName path (around.lookalike? path.value)]

end Environment

/-- What is reported about a name. It does not matter what was recorded for it before. -/
def Sighting.errors (table : SymbolTable) : Sighting → List ResolutionError
  | reference around name _ => around.referenceErrors name
  | typeName around path _ => around.typeErrors table path

/-- What is reported about some names, one after the other. -/
def nameErrors (table : SymbolTable) (sightings : List Sighting) : List ResolutionError :=
  sightings.flatMap (Sighting.errors table)

section Names

variable {table : SymbolTable}

@[simp]
theorem nameErrors_append (first second : List Sighting) :
    nameErrors table (first ++ second) = nameErrors table first ++ nameErrors table second :=
  List.flatMap_append

theorem nameErrors_reference (table : SymbolTable) (around : Environment) (name : Identifier)
    (symbol : Option SymbolIndex) :
    nameErrors table [.reference around name symbol] = around.referenceErrors name :=
  List.flatMap_singleton _ _

theorem nameErrors_typeName (table : SymbolTable) (around : Environment) (path : Identifier)
    (symbol : Option SymbolIndex) :
    nameErrors table [.typeName around path symbol] = around.typeErrors table path :=
  List.flatMap_singleton _ _

/-- The names that are misused are reported. -/
theorem misnaming_nameErrors (sightings : List Sighting) :
    (nameErrors table sightings).filterMap ResolutionError.misnaming? =
      sightings.flatMap Sighting.misnamed := by
  rw [nameErrors, List.filterMap_flatMap]
  refine List.flatMap_congr fun sighting _ => ?_
  cases sighting with
  | reference around name =>
    simp only [Sighting.errors, Environment.referenceErrors, Sighting.misnamed, Environment.misnamedReference]
    cases around.headingOf? name.value <;> rfl
  | typeName around path =>
    simp only [Sighting.errors, Environment.typeErrors, Sighting.misnamed, Environment.misnamedType]
    cases around.headingOf? path.value with
    | none => rfl
    | some heading => by_cases struct : heading.kind = .struct <;> simp [struct, ResolutionError.misnaming?]

/-- Where names are reported, no fields are. -/
@[simp]
theorem missing_nameErrors (sightings : List Sighting) :
    (nameErrors table sightings).filterMap ResolutionError.missing? = [] := by
  rw [nameErrors, List.filterMap_flatMap, List.flatMap_eq_nil_iff]
  intro sighting _
  cases sighting with
  | reference around name =>
    simp only [Sighting.errors, Environment.referenceErrors]
    cases around.headingOf? name.value <;> rfl
  | typeName around path =>
    simp only [Sighting.errors, Environment.typeErrors]
    cases around.headingOf? path.value with
    | none => rfl
    | some heading => by_cases struct : heading.kind = .struct <;> simp [struct, ResolutionError.missing?]

variable (within around : Environment)

/-- About names in a type that were bound, the same is reported. -/
theorem Ty.errors_bind (type : Ty) : nameErrors table ((type.bind within).sightings around) =
    nameErrors table (type.sightings around) := by
  induction type using Ty.byParts with
  | builtin | struct => rfl
  | pointer target ih => exact ih
  | named path symbol => rfl
  | procedure parameters isVariadic result ihParameters ihResult =>
    have inner : nameErrors table (Ty.parameterSightings around (Ty.bindParameters within parameters)) =
        nameErrors table (Ty.parameterSightings around parameters) := by
      induction parameters with
      | nil => rfl
      | cons first rest ih =>
        obtain ⟨own, others⟩ := List.forall_mem_cons.mp ihParameters
        simp only [Ty.bindParameters, Ty.parameterSightings, nameErrors_append, own, ih others]
    simp only [Ty.bind, Ty.sightings, nameErrors_append, inner, ihResult]

theorem Member.errors_bind (members : List Member) :
    nameErrors table (Member.sightings around (members.map (Member.map id (Ty.bind within)))) =
      nameErrors table (Member.sightings around members) := by
  rw [Member.sightings, Member.sightings, List.flatMap_map, nameErrors, nameErrors, List.flatMap_assoc,
    List.flatMap_assoc]
  exact List.flatMap_congr fun member _ => member.type.value.errors_bind within around

theorem Ty.errors_bindOption (type : Option Annotation) :
    nameErrors table (annotationSightings around (type.map (Spanned.map (Ty.bind within)))) =
      nameErrors table (annotationSightings around type) := by
  cases type with
  | none => rfl
  | some annotated => exact annotated.value.errors_bind within around

theorem ProcedureHead.errors_bind (head : ProcedureHead) :
    nameErrors table ((head.map id (Ty.bind within)).sightings around) =
      nameErrors table (head.sightings around) := by
  simp only [sightings, map, nameErrors_append, Member.errors_bind, Ty.errors_bindOption]

end Names

/-- What is reported about the access of a field of a value of a type. -/
def Layout.errors (layout : Layout) (type : Ty) (target : Span) (field : Identifier) :
    List ResolutionError :=
  match layout with
  | struct name fields =>
    if (fields.find? fun candidate => candidate.1 = field.value).isSome then []
    else [.undefinedField name field ((fields.map Prod.fst).find? (isLookalike field.value))]
  | notAStruct => [.noFields field target type]
  | unknown => []

section Fields

variable (layout : Layout) (type : Ty) (target : Span) (field : Identifier)

/-- Where fields are reported, no names are. -/
theorem Layout.misnaming_errors :
    (layout.errors type target field).filterMap ResolutionError.misnaming? = [] := by
  cases layout with
  | struct name fields =>
    rw [errors]
    split <;> rfl
  | notAStruct | unknown => rfl

/-- The fields that are missing are reported. -/
theorem Layout.missing_errors :
    (layout.errors type target field).filterMap ResolutionError.missing? = layout.missing field := by
  cases layout with
  | struct name fields =>
    rw [errors, missing]
    split <;> rfl
  | notAStruct | unknown => rfl

end Fields

/-- What is reported about the access of a field of a target at a place. -/
def Outcome.accessErrors (target : Outcome) (layouts : Types → Ty → Layout) (span : Span)
    (field : Identifier) : List ResolutionError :=
  target.type.elim [] fun type => (layouts target.types type).errors type span field

namespace Plan

/-- The place of an expression, told by its plan. -/
def span : Plan → Span
  | reference span _ _ | .field span _ _ | expression span _ => span
  | value _ | stated _ | external _ | procedure _ _ | struct _ | binding _ _ | combine _ _ _ => .unknown

/-- What a walk over a tree reports, told by the plan with all names bound and the types with which the
walk starts. -/
def errors (table : SymbolTable) (layouts : Types → Ty → Layout) (around : Environment) :
    Plan → Types → List ResolutionError
  | value _, _ => []
  | stated type, _ => nameErrors table (type.sightings around)
  | reference _ name _, _ => around.referenceErrors name
  | .field _ target name, types =>
    target.errors table layouts around types ++
      (target.run layouts types).accessErrors layouts target.span name
  | expression _ inner, types => inner.errors table layouts around types
  | external head, _ => nameErrors table (head.sightings (insideExternal around head))
  | procedure head body, types =>
    let inside := insideProcedure around head body
    nameErrors table (head.sightings inside) ++
      body.errors table layouts (inside.enter (Member.declarations head.parameters))
        (types.record (head.entries ++ Member.entries head.parameters))
  | struct declared, _ =>
    nameErrors table (Member.sightings (insideStruct around declared) declared.fields)
  | binding head initial, types =>
    nameErrors table (annotationSightings around head.type) ++ initial.errors table layouts around types
  | combine _ first second, types =>
    first.errors table layouts around types ++
      second.errors table layouts (around.declare first.declarations) (first.run layouts types).types

/-- What the last walk over each of several trees reports, one after the other. -/
def lastErrors (table : SymbolTable) (layouts : Types → Ty → Layout) (around : Environment) :
    List Plan → Types → List ResolutionError
  | [], _ => []
  | plan :: plans, types =>
    plan.errors table layouts around (plan.lastTypes layouts types) ++
      lastErrors table layouts (around.declare plan.declarations) plans (plan.lastRun layouts types).types

variable {table : SymbolTable} {layouts : Types → Ty → Layout}

/-- The names that are misused in a plan are reported. -/
theorem misnaming_errors (plan : Plan) (around : Environment) (types : Types) :
    (plan.errors table layouts around types).filterMap ResolutionError.misnaming? =
      plan.misnamed around := by
  have access (target : Outcome) (span : Span) (field : Identifier) :
      (target.accessErrors layouts span field).filterMap ResolutionError.misnaming? = [] := by
    rw [Outcome.accessErrors]
    cases target.type with
    | none => rfl
    | some type => exact Layout.misnaming_errors _ type span field
  -- what is said about an access is no misuse of a name, so that only the sightings count
  rw [← misnamed_sightings]
  induction plan generalizing around types with
  | value => rfl
  | stated | external | struct => exact misnaming_nameErrors _
  | reference span name symbol =>
    rw [errors, ← nameErrors_reference table around name symbol]
    exact misnaming_nameErrors _
  | field span target name ih =>
    rw [errors, List.filterMap_append, ih, access, List.append_nil]
    rfl
  | expression span inner ih => exact ih around types
  | procedure head body ih =>
    rw [errors, List.filterMap_append, ih, misnaming_nameErrors, sightings, List.flatMap_append]
  | binding head initial ih =>
    rw [errors, List.filterMap_append, ih, misnaming_nameErrors, sightings, List.flatMap_append]
  | combine rule first second ihFirst ihSecond =>
    rw [errors, List.filterMap_append, ihFirst, ihSecond, sightings, List.flatMap_append]

/-- The fields that are missing in a run of a plan are reported. -/
theorem missing_errors (plan : Plan) (around : Environment) (types : Types) :
    (plan.errors table layouts around types).filterMap ResolutionError.missing? =
      (plan.run layouts types).missing := by
  have access (target : Outcome) (span place : Span) (field : Identifier) :
      target.missing ++ (target.accessErrors layouts place field).filterMap ResolutionError.missing? =
        (target.access layouts span field).missing := by
    simp only [Outcome.access, Outcome.accessErrors]
    cases target.type with
    | none => rfl
    | some type => exact congrArg _ (Layout.missing_errors _ type place field)
  -- what is said about names is never that a field is missing
  induction plan generalizing around types with
  | value => rfl
  | stated | external | struct => exact missing_nameErrors _
  | reference span name symbol =>
    rw [errors, ← nameErrors_reference table around name symbol]
    exact missing_nameErrors _
  | field span target name ih =>
    rw [errors, List.filterMap_append, ih]
    exact access _ span _ name
  | expression span inner ih => exact ih around types
  | procedure head body ih =>
    rw [errors, List.filterMap_append, ih, missing_nameErrors]
    rfl
  | binding head initial ih =>
    rw [errors, List.filterMap_append, ih, missing_nameErrors]
    rfl
  | combine rule first second ihFirst ihSecond =>
    rw [errors, List.filterMap_append, ihFirst, ihSecond]
    rfl

theorem misnaming_lastErrors (plans : List Plan) (around : Environment) (types : Types) :
    (lastErrors table layouts around plans types).filterMap ResolutionError.misnaming? =
      (sequence plans).misnamed around := by
  induction plans generalizing around types with
  | nil => rfl
  | cons first rest ih => rw [lastErrors, List.filterMap_append, misnaming_errors, ih, sequence, misnamed]

theorem missing_lastErrors (plans : List Plan) (around : Environment) (types : Types) :
    (lastErrors table layouts around plans types).filterMap ResolutionError.missing? =
      (lastRuns layouts plans types).flatMap Outcome.missing := by
  induction plans generalizing around types with
  | nil => rfl
  | cons first rest ih =>
    rw [lastErrors, List.filterMap_append, missing_errors, ih, lastRuns, List.flatMap_cons, lastRun]

/-- Binding the names in the first plan does not change what is declared behind it. -/
theorem lastErrors_bindAll (first : Plan) (rest : List Plan) (around : Environment) (types : Types) :
    lastErrors table layouts around (bindAll around (first :: rest)) types =
      (first.bind around).errors table layouts around ((first.bind around).lastTypes layouts types) ++
        lastErrors table layouts (around.declare first.declarations)
          (bindAll (around.declare first.declarations) rest) ((first.bind around).lastRun layouts types).types := by
  rw [bindAll, lastErrors, declarations_bind]

/-- If it is fixed what the fields of values are, walks that find out the same report the same. -/
theorem errors_congr (plan : Plan) {layout : Ty → Layout} {types types' : Types} (around : Environment)
    (same : (plan.run (fun _ => layout) types).findings = (plan.run (fun _ => layout) types').findings) :
    plan.errors table (fun _ => layout) around types = plan.errors table (fun _ => layout) around types' := by
  induction plan generalizing around types types' with
  | value | stated | reference | external | struct => rfl
  | field span target name ih =>
    obtain ⟨inner, own⟩ := List.append_inj' same rfl
    have type : (target.run (fun _ => layout) types).type = (target.run (fun _ => layout) types').type := by
      simpa using congrArg (List.map Finding.usage) own
    simp only [errors, Outcome.accessErrors, ih around inner, type]
  | expression span inner ih => exact ih around (List.append_inj_left' same rfl)
  | procedure head body ih => exact congrArg (_ ++ ·) (ih _ same)
  | binding head initial ih => exact congrArg (_ ++ ·) (ih around same)
  | combine rule first second ihFirst ihSecond =>
    obtain ⟨left, right⟩ := List.append_inj same (by simp only [length_findings])
    simp only [errors, ihFirst around left, ihSecond _ right]

end Plan

/-- The plan of an expression tells its place. -/
theorem Expr.span_plan (expression : Expr) : expression.plan.span = expression.span := by
  obtain ⟨info, form⟩ := expression
  cases form <;> rfl

end Cadence
