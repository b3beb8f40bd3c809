import Cadence.Proofs.Plan.Renaming

/-!
# Names in plans are bound

The rule of scoping decides what is recorded about every name in a plan, and which names are
misused. Neither depends on the types of symbols, so that every walk over a tree binds the names in
it to the same symbols.
-/
namespace Cadence

namespace Environment

/-- What is known about the declaration that a name denotes. -/
def headingOf? (around : Environment) (name : String) : Option Heading :=
  (around.denoted? name).map Declaration.heading

def symbolOf? (around : Environment) (name : String) : Option SymbolIndex :=
  (around.headingOf? name).bind Heading.symbol

/-- What is recorded about a name in a type. What was known before stays if there is no struct of the
name. -/
def structOf? (around : Environment) (path : Identifier) (known : Option SymbolIndex) :
    Option SymbolIndex :=
  match around.headingOf? path.value with
  | some heading => if heading.kind = .struct then heading.symbol else known
  | none => known

def misnamedReference (around : Environment) (name : Identifier) : List Misnaming :=
  match around.headingOf? name.value with
  | some _ => []
  | none => [⟨.e020, name⟩]

def misnamedType (around : Environment) (path : Identifier) : List Misnaming :=
  match around.headingOf? path.value with
  | some heading => if heading.kind = .struct then [] else [⟨.e021, path⟩]
  | none => [⟨.e020, path⟩]

end Environment

mutual

/-- The type with its names bound. The fields of a struct are not looked at again. -/
def Ty.bind (around : Environment) : Ty → Ty
  | .builtin type => .builtin type
  | .struct name fields => .struct name fields
  | .pointer target => .pointer (target.bind around)
  | .procedure parameters isVariadic result =>
    .procedure (Ty.bindParameters around parameters) isVariadic (result.bind around)
  | .named path known => .named path (around.structOf? path known)

def Ty.bindParameters (around : Environment) :
    List (Option String × Ty) → List (Option String × Ty)
  | [] => []
  | (name, type) :: rest => (name, type.bind around) :: Ty.bindParameters around rest

end

mutual

/-- The names that are misused in a type. -/
def Ty.misnamed (around : Environment) : Ty → List Misnaming
  | .builtin _ | .struct _ _ => []
  | .pointer target => target.misnamed around
  | .procedure parameters _ result =>
    Ty.misnamedParameters around parameters ++ result.misnamed around
  | .named path _ => around.misnamedType path

def Ty.misnamedParameters (around : Environment) : List (Option String × Ty) → List Misnaming
  | [] => []
  | (_, type) :: rest => type.misnamed around ++ Ty.misnamedParameters around rest

end

def Ty.misnamedOption (around : Environment) (type : Option Annotation) : List Misnaming :=
  type.elim [] fun annotated => annotated.value.misnamed around

def Member.misnamed (around : Environment) (members : List Member) : List Misnaming :=
  members.flatMap fun member => member.type.value.misnamed around

def ProcedureHead.misnamed (around : Environment) (head : ProcedureHead) : List Misnaming :=
  Member.misnamed around head.parameters ++ Ty.misnamedOption around head.result

namespace Plan

/-- In the head of a procedure that has a body. -/
def insideProcedure (around : Environment) (head : ProcedureHead) (body : Plan) : Environment :=
  around.declare [.withBody head.heading (Member.declarations head.parameters ++ body.declarations)]

def insideExternal (around : Environment) (head : ProcedureHead) : Environment :=
  around.declare [.simple head.heading]

def insideStruct (around : Environment) (declared : Struct) : Environment :=
  around.declare [.withBody declared.heading (Member.declarations declared.fields)]

/-- The plan with all names bound. -/
def bind (around : Environment) : Plan → Plan
  | value type => value type
  | stated type => stated (type.bind around)
  | reference span name _ => reference span name (around.symbolOf? name.value)
  | .field span target name => .field span (target.bind around) name
  | expression span inner => expression span (inner.bind around)
  | external head => external (head.map id (Ty.bind (insideExternal around head)))
  | procedure head body =>
    let inside := insideProcedure around head body
    procedure (head.map id (Ty.bind inside))
      (body.bind (inside.enter (Member.declarations head.parameters)))
  | struct declared => struct (declared.map id (Ty.bind (insideStruct around declared)))
  | binding head initial => binding (head.map id (Ty.bind around)) (initial.bind around)
  | combine rule first second =>
    combine rule (first.bind around) (second.bind (around.declare first.declarations))

/-- The names that are misused in a plan. -/
def misnamed (around : Environment) : Plan → List Misnaming
  | value _ => []
  | stated type => type.misnamed around
  | reference _ name _ => around.misnamedReference name
  | .field _ target _ => target.misnamed around
  | expression _ inner => inner.misnamed around
  | external head => head.misnamed (insideExternal around head)
  | procedure head body =>
    let inside := insideProcedure around head body
    head.misnamed inside ++ body.misnamed (inside.enter (Member.declarations head.parameters))
  | struct declared => Member.misnamed (insideStruct around declared) declared.fields
  | binding head initial => Ty.misnamedOption around head.type ++ initial.misnamed around
  | combine _ first second =>
    first.misnamed around ++ second.misnamed (around.declare first.declarations)

end Plan

section Types

theorem Ty.bindParameters_eq (around : Environment) (parameters : List (Option String × Ty)) :
    Ty.bindParameters around parameters =
      parameters.map fun parameter => (parameter.1, parameter.2.bind around) := by
  induction parameters with
  | nil => rfl
  | cons first rest ih => simp [bindParameters, ih]

theorem Ty.misnamedParameters_eq (around : Environment) (parameters : List (Option String × Ty)) :
    Ty.misnamedParameters around parameters =
      parameters.flatMap fun parameter => parameter.2.misnamed around := by
  induction parameters with
  | nil => rfl
  | cons first rest ih => simp [misnamedParameters, ih]

/-- In a type that is written down, all names are bound. -/
theorem Ty.bind_eq_mapNames {type : Ty} (plain : type.IsPlain) (around : Environment) :
    type.bind around = type.mapNames around.structOf? := by
  induction type using Ty.byParts with
  | builtin | named => rfl
  | struct => exact plain.elim
  | pointer target ih => exact congrArg Ty.pointer (ih plain)
  | procedure parameters isVariadic result ihParameters ihResult =>
    have inner := (parametersArePlain_iff parameters).mp plain.1
    rw [bind, mapNames, bindParameters_eq, mapParameterNames_eq, ihResult plain.2]
    congr 1
    refine List.map_congr_left fun parameter member => ?_
    rw [ihParameters parameter member (inner parameter member)]

/-- To bind the names in a type changes nothing but what is recorded for them. -/
theorem Ty.bare_bind (around : Environment) (type : Ty) : (type.bind around).bare = type.bare := by
  induction type using Ty.byParts with
  | builtin | named | struct => rfl
  | pointer target ih => exact congrArg Ty.pointer ih
  | procedure parameters isVariadic result ihParameters ihResult =>
    simp only [bare] at ihParameters ihResult
    simp only [bare, bind, mapNames, bindParameters_eq, mapParameterNames_eq, List.map_map, ihResult]
    congr 1
    exact List.map_congr_left fun parameter member => congrArg _ (ihParameters parameter member)

/-- What is recorded about the names does not matter to which ones are misused. -/
theorem Ty.misnamed_mapNames {type : Ty} {change : Identifier → Option SymbolIndex → Option SymbolIndex}
    (around : Environment) : (type.mapNames change).misnamed around = type.misnamed around := by
  induction type using Ty.byParts with
  | builtin | named | struct => rfl
  | pointer target ih => exact ih
  | procedure parameters isVariadic result ihParameters ihResult =>
    rw [mapNames, misnamed, misnamed, ihResult, misnamedParameters_eq, misnamedParameters_eq,
      mapParameterNames_eq, List.flatMap_map]
    congr 1
    exact List.flatMap_congr ihParameters

/-- If no name in a type is misused, they are all bound to structs. -/
theorem Ty.allNames_of_misnamed {type : Ty} (plain : type.IsPlain) {around : Environment}
    (right : type.misnamed around = []) : type.AllNames fun path _ =>
      ∃ heading, around.headingOf? path.value = some heading ∧ heading.kind = .struct := by
  induction type using Ty.byParts with
  | builtin => trivial
  | struct => exact plain.elim
  | pointer target ih => exact ih plain right
  | procedure parameters isVariadic result ihParameters ihResult =>
    rw [misnamed, List.append_eq_nil_iff, misnamedParameters_eq, List.flatMap_eq_nil_iff] at right
    have inner := (parametersArePlain_iff parameters).mp plain.1
    refine ⟨(allParameterNames_iff _ _).mpr fun parameter member => ?_, ihResult plain.2 right.2⟩
    exact ihParameters parameter member (inner parameter member) (right.1 parameter member)
  | named path symbol =>
    simp only [misnamed, Environment.misnamedType] at right
    split at right
    next heading denoted =>
      by_cases struct : heading.kind = .struct
      · exact ⟨heading, denoted, struct⟩
      · simp [struct] at right
    next => cases right

end Types

section Declarations

variable {σ : SymbolIndex → SymbolIndex} {change : Ty → Ty}

/-- The heading of a declaration with another symbol. -/
def Heading.rename (σ : SymbolIndex → SymbolIndex) (heading : Heading) : Heading :=
  { heading with symbol := heading.symbol.map σ }

@[simp]
theorem Heading.rename_id (heading : Heading) : heading.rename id = heading := by
  simp [rename]

/-- What is declared is known by its heading. -/
def headings (declared : List Declaration) : List Heading := declared.map Declaration.heading

@[simp]
theorem headings_append (first second : List Declaration) :
    headings (first ++ second) = headings first ++ headings second := List.map_append

@[simp]
theorem headings_singleton (declaration : Declaration) : headings [declaration] = [declaration.heading] :=
  rfl

mutual

/-- The declaration with other symbols, its own one and those of what is declared in its body. -/
def Declaration.rename (σ : SymbolIndex → SymbolIndex) : Declaration → Declaration
  | .simple heading => .simple (heading.rename σ)
  | .withBody heading content => .withBody (heading.rename σ) (Declaration.renameAll σ content)

def Declaration.renameAll (σ : SymbolIndex → SymbolIndex) : List Declaration → List Declaration
  | [] => []
  | first :: rest => first.rename σ :: Declaration.renameAll σ rest

end

theorem Declaration.renameAll_eq (declared : List Declaration) :
    Declaration.renameAll σ declared = declared.map (Declaration.rename σ) := by
  induction declared with
  | nil => rfl
  | cons first rest ih => rw [renameAll, ih, List.map_cons]

theorem headings_renameAll (declared : List Declaration) :
    headings (Declaration.renameAll σ declared) = (headings declared).map (Heading.rename σ) := by
  rw [Declaration.renameAll_eq, headings, headings, List.map_map, List.map_map]
  exact List.map_congr_left fun declaration _ => by cases declaration <;> rfl

theorem Member.declarations_map (members : List Member) :
    declarations (members.map (Member.map σ change)) = Declaration.renameAll σ (declarations members) := by
  rw [Declaration.renameAll_eq, declarations, declarations, List.map_map, List.map_map]
  rfl

theorem Member.headings_map (members : List Member) :
    headings (Member.declarations (members.map (Member.map σ change))) =
      (headings (Member.declarations members)).map (Heading.rename σ) := by
  rw [declarations_map, headings_renameAll]

/-- Other types do not make other declarations. -/
theorem Member.declarations_map_id (members : List Member) :
    declarations (members.map (Member.map id change)) = declarations members := by
  simp only [declarations, List.map_map]
  refine List.map_congr_left fun member _ => ?_
  simp [Member.map, heading]

theorem ProcedureHead.declarations_map_id (head : ProcedureHead) :
    Member.declarations (head.map id change).parameters = Member.declarations head.parameters :=
  Member.declarations_map_id head.parameters

theorem Struct.declarations_map_id (struct : Struct) :
    Member.declarations (struct.map id change).fields = Member.declarations struct.fields :=
  Member.declarations_map_id struct.fields

theorem ProcedureHead.heading_map (head : ProcedureHead) :
    (head.map σ change).heading = head.heading.rename σ := rfl

theorem Struct.heading_map (struct : Struct) :
    (struct.map σ change).heading = struct.heading.rename σ := rfl

theorem BindingHead.heading_map (head : BindingHead) :
    (head.map σ change).heading = head.heading.rename σ := rfl

namespace Plan

@[simp]
theorem declarations_bind (around : Environment) (plan : Plan) :
    (plan.bind around).declarations = plan.declarations := by
  induction plan generalizing around with
  | value | stated | reference => rfl
  | field span target name ih => exact ih around
  | expression span inner ih => exact ih around
  | external head => simp [bind, declarations, ProcedureHead.heading_map]
  | procedure head body ih =>
    simp [bind, declarations, ProcedureHead.heading_map, ih, ProcedureHead.declarations_map_id]
  | struct declared => simp [bind, declarations, Struct.heading_map, Struct.declarations_map_id]
  | binding head initial ih => simp [bind, declarations, BindingHead.heading_map, ih]
  | combine rule first second ihFirst ihSecond => simp [bind, declarations, ihFirst, ihSecond]

theorem insideExternal_map (around : Environment) (head : ProcedureHead) :
    insideExternal around (head.map id change) = insideExternal around head := by
  simp [insideExternal, ProcedureHead.heading_map]

theorem insideProcedure_bind (around within : Environment) (head : ProcedureHead) (body : Plan) :
    insideProcedure around (head.map id change) (body.bind within) = insideProcedure around head body := by
  simp [insideProcedure, ProcedureHead.heading_map, ProcedureHead.declarations_map_id]

theorem insideStruct_map (around : Environment) (declared : Struct) :
    insideStruct around (declared.map id change) = insideStruct around declared := by
  simp [insideStruct, Struct.heading_map, Struct.declarations_map_id]

/-- The types that are written down stay the same, apart from what is recorded for the names in them. -/
theorem bareEntries_bind (around : Environment) (plan : Plan) :
    mapEntries id Ty.bare (plan.bind around).entries = mapEntries id Ty.bare plan.entries := by
  have types (around : Environment) : Ty.bare ∘ Ty.bind around = Ty.bare := funext (Ty.bare_bind around)
  have append (left right : List (SymbolIndex × Option Ty)) : mapEntries id Ty.bare (left ++ right) =
      mapEntries id Ty.bare left ++ mapEntries id Ty.bare right := List.map_append
  have procedure (around : Environment) (head : ProcedureHead) :
      mapEntries id Ty.bare (head.map id (Ty.bind around)).entries = mapEntries id Ty.bare head.entries := by
    rw [Ty.bare, ← ProcedureHead.entries_map, ← ProcedureHead.entries_map, ← Ty.bare,
      ProcedureHead.map_map, types]
    rfl
  have struct (around : Environment) (declared : Struct) :
      mapEntries id Ty.bare (declared.map id (Ty.bind around)).entries =
        mapEntries id Ty.bare declared.entries := by
    rw [Ty.bare, ← Struct.entries_map, ← Struct.entries_map, ← Ty.bare, Struct.map_map, types]
    rfl
  have members (around : Environment) (members : List Member) :
      mapEntries id Ty.bare (Member.entries (members.map (Member.map id (Ty.bind around)))) =
        mapEntries id Ty.bare (Member.entries members) := by
    rw [← Member.entries_map, ← Member.entries_map, Member.map_map, types]
    rfl
  have binding (around : Environment) (head : BindingHead) :
      mapEntries id Ty.bare ((head.map id (Ty.bind around)).entries none) =
        mapEntries id Ty.bare (head.entries none) := by
    have bound := (head.map id (Ty.bind around)).entries_map id Ty.bare none
    rw [BindingHead.map_map, types] at bound
    exact bound.symm.trans (head.entries_map id Ty.bare none)
  -- only the types that are written down are bound, and what they are without symbols stays
  induction plan generalizing around with
  | value | stated | reference => rfl
  | field span target name ih => exact ih around
  | expression span inner ih => exact ih around
  | external head => exact procedure _ head
  | procedure head body ih =>
    simp only [bind, entries, append, procedure, ih]
    exact congrArg (_ ++ · ++ _) (members _ head.parameters)
  | struct declared =>
    simp only [bind, entries, append, struct]
    exact congrArg (· ++ _) (members _ declared.fields)
  | binding head initial ih => simp only [bind, entries, append, binding, ih]
  | combine rule first second ihFirst ihSecond => simp only [bind, entries, append, ihFirst, ihSecond]

@[simp]
theorem symbols_bind (around : Environment) (plan : Plan) : (plan.bind around).symbols = plan.symbols := by
  simpa [symbols, mapEntries, Function.comp_def] using congrArg (List.map Prod.fst) (plan.bareEntries_bind around)

theorem allWritten_bind {plan : Plan} (plain : plan.AllWritten Ty.IsPlain) (around : Environment) :
    (plan.bind around).AllWritten Ty.IsPlain := by
  have types (around : Environment) (type : Ty) (plain : type.IsPlain) :
      (type.bind around).IsPlain := by
    rw [Ty.bind_eq_mapNames plain]
    exact Ty.isPlain_mapNames.mpr plain
  induction plan generalizing around with
  | value | reference => exact plain
  | stated type => exact types around type plain
  | field span target name ih => exact ih plain around
  | expression span inner ih => exact ih plain around
  | external head => exact ProcedureHead.allTypes_map plain (types _)
  | procedure head body ih => exact ⟨ProcedureHead.allTypes_map plain.1 (types _), ih plain.2 _⟩
  | struct declared => exact Struct.allTypes_map plain (types _)
  | binding head initial ih => exact ⟨BindingHead.allTypes_map plain.1 (types _), ih plain.2 _⟩
  | combine rule first second ihFirst ihSecond => exact ⟨ihFirst plain.1 _, ihSecond plain.2 _⟩

/-- Names stay bound to what they were bound to. -/
theorem bind_bind {plan : Plan} (plain : plan.AllWritten Ty.IsPlain) (around : Environment) :
    (plan.bind around).bind around = plan.bind around := by
  have types (around : Environment) (type : Ty) (plain : type.IsPlain) :
      (Ty.bind around ∘ Ty.bind around) type = type.bind around := by
    rw [Function.comp_apply, Ty.bind_eq_mapNames plain,
      Ty.bind_eq_mapNames (Ty.isPlain_mapNames.mpr plain), Ty.mapNames_mapNames]
    congr 1
    funext path symbol
    simp only [Environment.structOf?]
    -- a name that denotes no struct keeps its symbol, and one that does gets the same one again
    cases around.headingOf? path.value with
    | none => rfl
    | some heading => by_cases struct : heading.kind = .struct <;> simp [struct]
  induction plan generalizing around with
  | value | reference => rfl
  | stated type => exact congrArg stated (types around type plain)
  | field span target name ih => simp [bind, ih plain]
  | expression span inner ih => simp [bind, ih plain]
  | external head =>
    simp only [bind, insideExternal_map, ProcedureHead.map_map]
    exact congrArg external (ProcedureHead.map_congr plain (types _))
  | procedure head body ih =>
    simp only [bind, insideProcedure_bind, ProcedureHead.declarations_map_id, ih plain.2,
      ProcedureHead.map_map]
    exact congrArg (procedure · _) (ProcedureHead.map_congr plain.1 (types _))
  | struct declared =>
    simp only [bind, insideStruct_map, Struct.map_map]
    exact congrArg struct (Struct.map_congr plain (types _))
  | binding head initial ih =>
    simp only [bind, ih plain.2, BindingHead.map_map]
    exact congrArg (binding · _) (BindingHead.map_congr plain.1 (types _))
  | combine rule first second ihFirst ihSecond =>
    simp [bind, ihFirst plain.1, ihSecond plain.2]

/-- The names that are misused stay the same. -/
theorem misnamed_bind {plan : Plan} (plain : plan.AllWritten Ty.IsPlain) (around : Environment) :
    (plan.bind around).misnamed around = plan.misnamed around := by
  have types {around : Environment} (within : Environment) {type : Ty} (plain : type.IsPlain) :
      (type.bind around).misnamed within = type.misnamed within := by
    rw [Ty.bind_eq_mapNames plain]
    exact Ty.misnamed_mapNames within
  have members {around : Environment} (within : Environment) {members : List Member}
      (plain : ∀ member ∈ members, member.type.value.IsPlain) :
      Member.misnamed within (members.map (Member.map id (Ty.bind around))) =
        Member.misnamed within members := by
    rw [Member.misnamed, Member.misnamed, List.flatMap_map]
    exact List.flatMap_congr fun member present => types within (plain member present)
  have written {around : Environment} (within : Environment) {type : Option Annotation}
      (plain : ∀ annotated ∈ type, annotated.value.IsPlain) :
      Ty.misnamedOption within (type.map (Spanned.map (Ty.bind around))) =
        Ty.misnamedOption within type := by
    cases type with
    | none => rfl
    | some annotated => exact types within (plain annotated rfl)
  have heads {around : Environment} (within : Environment) {head : ProcedureHead}
      (plain : head.AllTypes Ty.IsPlain) :
      (head.map id (Ty.bind around)).misnamed within = head.misnamed within := by
    rw [ProcedureHead.misnamed, ProcedureHead.misnamed]
    exact congr (congrArg _ (members within plain.1)) (written within plain.2)
  -- binding a name leaves its spelling, which is all that a misuse is told by
  induction plan generalizing around with
  | value | reference => rfl
  | stated type => exact types around plain
  | field span target name ih => exact ih plain around
  | expression span inner ih => exact ih plain around
  | external head =>
    rw [bind, misnamed, insideExternal_map]
    exact heads _ plain
  | procedure head body ih =>
    simp only [bind, misnamed, insideProcedure_bind, ProcedureHead.declarations_map_id, ih plain.2]
    exact congrArg (· ++ _) (heads _ plain.1)
  | struct declared =>
    rw [bind, misnamed, insideStruct_map]
    exact members _ plain
  | binding head initial ih =>
    simp only [bind, misnamed, ih plain.2]
    exact congrArg (· ++ _) (written _ plain.1)
  | combine rule first second ihFirst ihSecond =>
    simp [bind, misnamed, ihFirst plain.1, ihSecond plain.2]

/-- Some plans that are bound one after the other. -/
def bindAll (around : Environment) : List Plan → List Plan
  | [] => []
  | first :: rest => first.bind around :: bindAll (around.declare first.declarations) rest

@[simp]
theorem length_bindAll (around : Environment) (plans : List Plan) :
    (bindAll around plans).length = plans.length := by
  induction plans generalizing around with
  | nil => rfl
  | cons first rest ih => exact congrArg (· + 1) (ih _)

theorem bind_sequence (around : Environment) (plans : List Plan) :
    (sequence plans).bind around = sequence (bindAll around plans) := by
  induction plans generalizing around with
  | nil => rfl
  | cons first rest ih =>
    rw [sequence, bind, ih, bindAll, sequence]
    cases rest <;> rfl

theorem misnamed_bindAll {plans : List Plan} (plain : ∀ plan ∈ plans, plan.AllWritten Ty.IsPlain)
    (around : Environment) :
    (sequence (bindAll around plans)).misnamed around = (sequence plans).misnamed around := by
  rw [← bind_sequence, misnamed_bind (.sequence plain)]

end Plan

end Declarations

end Cadence
