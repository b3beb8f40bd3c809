import Cadence.Proofs.Symbol.Declaration
import Cadence.Proofs.Syntax.Types

/-!
# What names denote

The rule of scoping, told about the trees alone. At every place in a unit, some declarations have
been made in each of the bodies around it and some in the global scope. A name denotes the latest
one of that name in the innermost body that has one, or the latest one in the global scope, or the
first one that is made in the global scope later on.

A binding is made behind its initial value. Procedures and structs are made in front of their
parameters and fields, the parameters in front of the body. Blocks are no bodies of their own.
-/
namespace Cadence

/-- The declarations that a place is surrounded by. -/
structure Environment where
  /-- Those that were made in the bodies of procedures around the place, innermost body first. -/
  bodies : List (List Declaration)
  /-- Those that were made in the global scope, in this file or in earlier ones. -/
  earlier : List Declaration
  /-- All those of the global scope, whether they were made or are still to come. -/
  globals : List Declaration

/-- The first one of some declarations that has a name. -/
def first? (name : String) (declared : List Declaration) : Option Declaration :=
  declared.find? fun declaration => declaration.name = name

/-- The latest one of some declarations that has a name. -/
def latest? (name : String) (declared : List Declaration) : Option Declaration :=
  first? name declared.reverse

theorem first?_append (name : String) (left right : List Declaration) :
    first? name (left ++ right) = (first? name left).or (first? name right) :=
  List.find?_append

theorem latest?_append (name : String) (left right : List Declaration) :
    latest? name (left ++ right) = (latest? name right).or (latest? name left) := by
  rw [latest?, List.reverse_append, first?_append]
  rfl

namespace Environment

/-- The declaration that a name denotes. -/
def denoted? (around : Environment) (name : String) : Option Declaration :=
  around.bodies.findSome? (latest? name) <|> latest? name around.earlier <|>
    first? name (around.globals.drop around.earlier.length)

/-- The names of all declarations that can be referred to, those first that are found first. -/
def names (around : Environment) : List String :=
  (around.bodies ++ [around.earlier]).flatMap (fun body => (body.map Declaration.name).reverse) ++
    around.globals.map Declaration.name

/-- Behind some further declarations. -/
def declare (around : Environment) (declared : List Declaration) : Environment :=
  match around.bodies with
  | [] => { around with earlier := around.earlier ++ declared }
  | body :: outer => { around with bodies := (body ++ declared) :: outer }

/-- In a body with some parameters. -/
def enter (around : Environment) (parameters : List Declaration) : Environment :=
  { around with bodies := parameters :: around.bodies }

end Environment

/-- A place where a name is used, and the symbol that is recorded there. -/
inductive Sighting where
  /-- A name stands for a value. -/
  | reference (around : Environment) (name : Identifier) (symbol : Option SymbolIndex)
  /-- A name stands for a type. -/
  | typeName (around : Environment) (path : Identifier) (symbol : Option SymbolIndex)

namespace Sighting

/-- The symbol of the declaration that the name denotes is recorded. A type has to be a struct. -/
def IsRight : Sighting → Prop
  | reference around name symbol =>
    match around.denoted? name.value with
    | some declaration => symbol.isSome ∧ symbol = declaration.symbol?
    | none => symbol = none
  | typeName around path symbol =>
    match around.denoted? path.value with
    | some declaration =>
      if declaration.heading.kind = .struct then symbol.isSome ∧ symbol = declaration.symbol?
      else symbol = none
    | none => symbol = none

/-- What is recorded will not be in the way: a type name without a symbol keeps what it has. -/
def IsOpen : Sighting → Prop
  | reference _ _ _ => True
  | typeName around path symbol => symbol = none ∨ (typeName around path symbol).IsRight

theorem IsRight.isOpen {sighting : Sighting} (right : sighting.IsRight) : sighting.IsOpen := by
  cases sighting with
  | reference => trivial
  | typeName => exact .inr right

end Sighting

mutual

/-- The names in a type. The fields of a struct are not looked at again. -/
def Ty.sightings (around : Environment) : Ty → List Sighting
  | .builtin _ | .struct _ _ => []
  | .pointer target => target.sightings around
  | .procedure parameters _ result =>
    Ty.parameterSightings around parameters ++ result.sightings around
  | .named path symbol => [.typeName around path symbol]

def Ty.parameterSightings (around : Environment) : List (Option String × Ty) → List Sighting
  | [] => []
  | (_, type) :: rest => type.sightings around ++ Ty.parameterSightings around rest

end

/-- The names in the type that is written at some place, if there is one. -/
def annotationSightings (around : Environment) : Option Annotation → List Sighting
  | none => []
  | some annotated => annotated.value.sightings around

/-- The names in the types of some parameters or fields. -/
def Member.sightings (around : Environment) (members : List Member) : List Sighting :=
  members.flatMap fun member => member.type.value.sightings around

/-- The names in the types of the parameters and the result of a procedure. -/
def ProcedureHead.sightings (around : Environment) (head : ProcedureHead) : List Sighting :=
  Member.sightings around head.parameters ++ annotationSightings around head.result

mutual

/-- The names that are used in a node. -/
def Node.sightings (around : Environment) : Node → List Sighting
  -- a procedure is known in its own head already, and its parameters only in its body
  | .procedure _ head none => head.sightings (around.declare [.simple head.heading])
  | .procedure _ head (some body) =>
    let parameters := Member.declarations head.parameters
    let inside := around.declare [.withBody head.heading (parameters ++ body.declarations)]
    head.sightings inside ++ body.sightings (inside.enter parameters)
  | .struct _ declared =>
    Member.sightings
      (around.declare [.withBody declared.heading (Member.declarations declared.fields)])
      declared.fields
  | .binding _ head initializer =>
    -- neither the type nor the initial value sees the binding
    annotationSightings around head.type ++ Expr.sightingsOption around initializer
  | .load _ _ => []
  | .expression inner => inner.sightings around
  | .assignment _ target _ value =>
    target.sightings around ++ value.sightings (around.declare target.declarations)

def Expr.sightings (around : Environment) : Expr → List Sighting
  | .mk _ form => form.sightings around

def Form.sightings (around : Environment) : Form → List Sighting
  | .reference binder symbol => [.reference around binder symbol]
  | .field target _ => target.sightings around
  | .call callee arguments =>
    callee.sightings around ++ Expr.sightingsAll (around.declare callee.declarations) arguments
  | .binary left _ right =>
    left.sightings around ++ right.sightings (around.declare left.declarations)
  | .unary _ operand => operand.sightings around
  | .cast operand type =>
    operand.sightings around ++ type.value.sightings (around.declare operand.declarations)
  | .block nodes => Node.sightingsAll around nodes
  | .conditional _ condition consequent alternative =>
    let behind := around.declare condition.declarations
    condition.sightings around ++ (consequent.sightings behind ++
      Expr.sightingsOption (behind.declare consequent.declarations) alternative)
  | .loop _ condition body alternative =>
    let behind := around.declare condition.declarations
    condition.sightings around ++ (body.sightings behind ++
      Expr.sightingsOption (behind.declare body.declarations) alternative)
  | .new type => type.value.sightings around
  | .delete operand => operand.sightings around
  | .defer node => node.sightings around
  | .bool _ | .integer _ _ | .real _ | .text _ | .character _ | .uninitialized => []

def Expr.sightingsOption (around : Environment) : Option Expr → List Sighting
  | none => []
  | some inner => inner.sightings around

def Expr.sightingsAll (around : Environment) : List Expr → List Sighting
  | [] => []
  | first :: rest =>
    first.sightings around ++ Expr.sightingsAll (around.declare first.declarations) rest

/-- The names that are used in some nodes one after the other. -/
def Node.sightingsAll (around : Environment) : List Node → List Sighting
  | [] => []
  | first :: rest =>
    first.sightings around ++ Node.sightingsAll (around.declare first.declarations) rest

end

/-- The names that are used in some files one after the other. -/
def fileSightings (around : Environment) : List (List Node) → List Sighting
  | [] => []
  | nodes :: rest =>
    Node.sightingsAll around nodes ++
      fileSightings (around.declare (Node.declarationsAll nodes)) rest

/-- The names that are used in the files of a unit. -/
def unitSightings (files : List (List Node)) : List Sighting :=
  fileSightings ⟨[], [], files.flatMap Node.declarationsAll⟩ files

theorem name_of_first? {name : String} {declared : List Declaration} {found : Declaration}
    (known : first? name declared = some found) : found.name = name := by
  simpa using List.find?_some known

theorem forall_annotationSightings {around : Environment} {type : Option Annotation}
    {holds : Sighting → Prop} :
    (∀ sighting ∈ annotationSightings around type, holds sighting) ↔
      ∀ annotated ∈ type, ∀ sighting ∈ annotated.value.sightings around, holds sighting := by
  cases type <;> simp [annotationSightings]

theorem Member.forall_sightings {around : Environment} {members : List Member}
    {holds : Sighting → Prop} :
    (∀ sighting ∈ Member.sightings around members, holds sighting) ↔
      ∀ member ∈ members, ∀ sighting ∈ member.type.value.sightings around, holds sighting :=
  List.forall_mem_flatMap

namespace Environment

/-- A name denotes a declaration of that name. -/
theorem name_of_denoted? {around : Environment} {name : String} {found : Declaration}
    (known : around.denoted? name = some found) : found.name = name := by
  simp only [denoted?, Option.orElse_eq_orElse, Option.orElse_eq_or, Option.or_eq_some_iff] at known
  -- in a body around, earlier in the global scope, or later in it
  rcases known with inBody | ⟨_, earlier | ⟨_, later⟩⟩
  · obtain ⟨body, _, latest⟩ := List.exists_of_findSome?_eq_some inBody
    exact name_of_first? latest
  · exact name_of_first? earlier
  · exact name_of_first? later

@[simp]
theorem declare_nil (around : Environment) : around.declare [] = around := by
  obtain ⟨bodies, earlier, globals⟩ := around
  cases bodies <;> simp [declare]

theorem declare_append (around : Environment) (first second : List Declaration) :
    around.declare (first ++ second) = (around.declare first).declare second := by
  obtain ⟨bodies, earlier, globals⟩ := around
  cases bodies <;> simp [declare]

end Environment

/-- Something holds of the name and the symbol of every name in a type that is sighted. -/
def Sighting.Records (holds : Identifier → Option SymbolIndex → Prop) : Sighting → Prop
  | reference _ _ _ => True
  | typeName _ path symbol => holds path symbol

section Records

variable {holds : Identifier → Option SymbolIndex → Prop}

mutual

theorem Ty.AllNames.records {type : Ty} (names : type.AllNames holds) (around : Environment) :
    ∀ sighting ∈ type.sightings around, sighting.Records holds := by
  cases type with
  | builtin | struct => simp [Ty.sightings]
  | pointer target =>
    have inner : target.AllNames holds := names
    exact inner.records around
  | procedure parameters isVariadic result =>
    exact List.forall_mem_append.mpr
      ⟨Ty.records_parameters names.1 around, names.2.records around⟩
  | named path symbol => exact List.forall_mem_singleton.mpr names

theorem Ty.records_parameters {parameters : List (Option String × Ty)}
    (names : Ty.AllParameterNames holds parameters) (around : Environment) :
    ∀ sighting ∈ Ty.parameterSightings around parameters, sighting.Records holds := by
  match parameters with
  | [] => simp [Ty.parameterSightings]
  | (name, type) :: rest =>
    exact List.forall_mem_append.mpr
      ⟨names.1.records around, Ty.records_parameters names.2 around⟩

end

theorem Member.records {members : List Member}
    (names : ∀ member ∈ members, member.type.value.AllNames holds) (around : Environment) :
    ∀ sighting ∈ Member.sightings around members, sighting.Records holds :=
  Member.forall_sightings.mpr fun member present => (names member present).records around

theorem records_written {type : Option Annotation}
    (names : ∀ annotated ∈ type, annotated.value.AllNames holds) (around : Environment) :
    ∀ sighting ∈ annotationSightings around type, sighting.Records holds :=
  forall_annotationSightings.mpr fun annotated present =>
    (names annotated present).records around

mutual

theorem Node.AllTypes.records {node : Node} (types : node.AllTypes (Ty.AllNames holds))
    (around : Environment) : ∀ sighting ∈ node.sightings around, sighting.Records holds := by
  cases node with
  | procedure span head body =>
    obtain ⟨headTypes, bodyTypes⟩ := types
    cases body with
    | none =>
      exact List.forall_mem_append.mpr ⟨Member.records headTypes.1 _,
        records_written headTypes.2 _⟩
    | some body =>
      have inner : body.AllTypes (Ty.AllNames holds) := bodyTypes
      refine List.forall_mem_append.mpr ⟨List.forall_mem_append.mpr ?_, inner.records _⟩
      exact ⟨Member.records headTypes.1 _, records_written headTypes.2 _⟩
  | struct span declared => exact Member.records types _
  | binding span head initializer =>
    exact List.forall_mem_append.mpr ⟨records_written types.1 _,
      Expr.records_option types.2 _⟩
  | load span path => simp [Node.sightings]
  | expression inner => exact Expr.AllTypes.records types _
  | assignment span target operator value =>
    exact List.forall_mem_append.mpr
      ⟨Expr.AllTypes.records types.1 _, Expr.AllTypes.records types.2 _⟩

theorem Expr.AllTypes.records {expression : Expr} (types : expression.AllTypes (Ty.AllNames holds))
    (around : Environment) : ∀ sighting ∈ expression.sightings around, sighting.Records holds := by
  obtain ⟨info, form⟩ := expression
  exact Form.AllTypes.records types.2 around

theorem Form.AllTypes.records {form : Form} (types : form.AllTypes (Ty.AllNames holds))
    (around : Environment) : ∀ sighting ∈ form.sightings around, sighting.Records holds := by
  cases form with
  | reference binder symbol => exact List.forall_mem_singleton.mpr trivial
  | field target name => exact Expr.AllTypes.records types _
  | call callee arguments =>
    exact List.forall_mem_append.mpr
      ⟨Expr.AllTypes.records types.1 _, Expr.records_all types.2 _⟩
  | binary left operator right =>
    exact List.forall_mem_append.mpr
      ⟨Expr.AllTypes.records types.1 _, Expr.AllTypes.records types.2 _⟩
  | unary operator operand => exact Expr.AllTypes.records types _
  | cast operand type =>
    exact List.forall_mem_append.mpr
      ⟨Expr.AllTypes.records types.1 _, Ty.AllNames.records types.2 _⟩
  | block nodes => exact Node.records_all types _
  | conditional isNegated condition consequent alternative =>
    exact List.forall_mem_append.mpr ⟨Expr.AllTypes.records types.1 _,
      List.forall_mem_append.mpr ⟨Expr.AllTypes.records types.2.1 _, Expr.records_option types.2.2 _⟩⟩
  | loop isNegated condition body alternative =>
    exact List.forall_mem_append.mpr ⟨Expr.AllTypes.records types.1 _,
      List.forall_mem_append.mpr ⟨Expr.AllTypes.records types.2.1 _, Expr.records_option types.2.2 _⟩⟩
  | new type => exact Ty.AllNames.records types _
  | delete operand => exact Expr.AllTypes.records types _
  | defer node => exact Node.AllTypes.records types _
  | bool | integer | real | text | character | uninitialized => simp [Form.sightings]

theorem Expr.records_option {expression : Option Expr}
    (types : Expr.AllTypesOption (Ty.AllNames holds) expression) (around : Environment) :
    ∀ sighting ∈ Expr.sightingsOption around expression, sighting.Records holds := by
  cases expression with
  | none => simp [Expr.sightingsOption]
  | some inner => exact Expr.AllTypes.records types _

theorem Expr.records_all {expressions : List Expr}
    (types : Expr.AllTypesAll (Ty.AllNames holds) expressions) (around : Environment) :
    ∀ sighting ∈ Expr.sightingsAll around expressions, sighting.Records holds := by
  cases expressions with
  | nil => simp [Expr.sightingsAll]
  | cons first rest =>
    exact List.forall_mem_append.mpr
      ⟨Expr.AllTypes.records types.1 _, Expr.records_all types.2 _⟩

theorem Node.records_all {nodes : List Node}
    (types : Node.AllTypesAll (Ty.AllNames holds) nodes) (around : Environment) :
    ∀ sighting ∈ Node.sightingsAll around nodes, sighting.Records holds := by
  cases nodes with
  | nil => simp [Node.sightingsAll]
  | cons first rest =>
    exact List.forall_mem_append.mpr
      ⟨Node.AllTypes.records types.1 _, Node.records_all types.2 _⟩

end

theorem records_files {files : List (List Node)}
    (types : ∀ nodes ∈ files, Node.AllTypesAll (Ty.AllNames holds) nodes) (around : Environment) :
    ∀ sighting ∈ fileSightings around files, sighting.Records holds := by
  induction files generalizing around with
  | nil => simp [fileSightings]
  | cons nodes rest ih =>
    simp only [List.mem_cons, forall_eq_or_imp] at types
    exact List.forall_mem_append.mpr ⟨Node.records_all types.1 _, ih types.2 _⟩

end Records

/-- A name in a type that has not been looked at is not in the way of anything. -/
theorem Sighting.Records.isOpen {sighting : Sighting}
    (unbound : sighting.Records fun _ symbol => symbol = none) : sighting.IsOpen := by
  cases sighting with
  | reference => trivial
  | typeName => exact .inl unbound

end Cadence
