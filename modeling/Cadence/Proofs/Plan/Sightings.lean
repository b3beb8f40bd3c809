import Cadence.Proofs.Plan.Binding
import Cadence.Proofs.Plan.Tree

/-!
# Names in trees and in their plans

The names that are used in a tree are those that are used in its plan, and the ones that stand for
values are the expressions that are references.
-/
namespace Cadence

namespace Sighting

/-- How the name is misused, if it is. -/
def misnamed : Sighting → List Misnaming
  | reference around name _ => around.misnamedReference name
  | typeName around path _ => around.misnamedType path

/-- How the name is misused if it stands for a type. -/
def misnamedType : Sighting → List Misnaming
  | reference _ _ _ => []
  | typeName around path _ => around.misnamedType path

/-- The name if it stands for a value, and what is recorded about it. -/
def reference? : Sighting → Option (Identifier × Option SymbolIndex)
  | reference _ name symbol => some (name, symbol)
  | typeName _ _ _ => none

end Sighting

/-- The name that an expression is, if it is a reference, and what is recorded about it. -/
def Expr.reference? (expression : Expr) : Option (Identifier × Option SymbolIndex) :=
  match expression.form with
  | .reference name symbol => some (name, symbol)
  | _ => none

section Types

variable (around : Environment)

theorem Ty.misnamed_sightings (type : Ty) :
    (type.sightings around).flatMap Sighting.misnamed = type.misnamed around := by
  induction type using Ty.byParts with
  | builtin | struct => rfl
  | named path symbol => exact List.flatMap_singleton _ _
  | pointer target ih => exact ih
  | procedure parameters isVariadic result ihParameters ihResult =>
    have inner : (Ty.parameterSightings around parameters).flatMap Sighting.misnamed =
        Ty.misnamedParameters around parameters := by
      induction parameters with
      | nil => rfl
      | cons first rest ih =>
        obtain ⟨own, others⟩ := List.forall_mem_cons.mp ihParameters
        rw [Ty.parameterSightings, List.flatMap_append, own, ih others, Ty.misnamedParameters]
    rw [Ty.sightings, List.flatMap_append, inner, ihResult, Ty.misnamed]

/-- No name in a type stands for a value. -/
theorem Ty.references_sightings (type : Ty) :
    (type.sightings around).filterMap Sighting.reference? = [] := by
  induction type using Ty.byParts with
  | builtin | struct | named => rfl
  | pointer target ih => exact ih
  | procedure parameters isVariadic result ihParameters ihResult =>
    have inner : (Ty.parameterSightings around parameters).filterMap Sighting.reference? = [] := by
      induction parameters with
      | nil => rfl
      | cons first rest ih =>
        obtain ⟨own, others⟩ := List.forall_mem_cons.mp ihParameters
        rw [Ty.parameterSightings, List.filterMap_append, own, ih others, List.append_nil]
    rw [Ty.sightings, List.filterMap_append, inner, ihResult, List.append_nil]

theorem Ty.misnamed_annotationSightings (annotated : Option Annotation) :
    (annotationSightings around annotated).flatMap Sighting.misnamed =
      Ty.misnamedOption around annotated := by
  cases annotated with
  | none => rfl
  | some annotated => exact annotated.value.misnamed_sightings around

@[simp]
theorem Ty.references_annotationSightings (annotated : Option Annotation) :
    (annotationSightings around annotated).filterMap Sighting.reference? = [] := by
  cases annotated with
  | none => rfl
  | some annotated => exact annotated.value.references_sightings around

theorem Member.misnamed_sightings (members : List Member) :
    (Member.sightings around members).flatMap Sighting.misnamed = Member.misnamed around members := by
  rw [Member.sightings, List.flatMap_assoc, Member.misnamed]
  exact List.flatMap_congr fun member _ => member.type.value.misnamed_sightings around

@[simp]
theorem Member.references_sightings (members : List Member) :
    (Member.sightings around members).filterMap Sighting.reference? = [] := by
  rw [Member.sightings, List.filterMap_flatMap, List.flatMap_eq_nil_iff]
  exact fun member _ => member.type.value.references_sightings around

theorem ProcedureHead.misnamed_sightings (head : ProcedureHead) :
    (head.sightings around).flatMap Sighting.misnamed = head.misnamed around := by
  rw [sightings, List.flatMap_append, Member.misnamed_sightings, Ty.misnamed_annotationSightings,
    misnamed]

@[simp]
theorem ProcedureHead.references_sightings (head : ProcedureHead) :
    (head.sightings around).filterMap Sighting.reference? = [] := by
  simp [sightings]

end Types

theorem Sighting.misnamedType_eq_nil {sighting : Sighting} (right : sighting.misnamed = []) :
    sighting.misnamedType = [] := by
  cases sighting with
  | reference => rfl
  | typeName => exact right

section Structs

variable {around : Environment}

/-- If none of some names stands for a value, and those that stand for types denote structs, none of
them is misused. -/
theorem misnamed_eq_nil {sightings : List Sighting} (types : sightings.filterMap Sighting.reference? = [])
    (structs : ∀ sighting ∈ sightings, sighting.misnamedType = []) :
    sightings.flatMap Sighting.misnamed = [] := by
  refine List.flatMap_eq_nil_iff.mpr fun sighting member => ?_
  have noValue := List.filterMap_eq_nil_iff.mp types sighting member
  cases sighting with
  | reference => cases noValue
  | typeName => exact structs _ member

theorem Ty.misnamed_eq_nil {type : Ty}
    (structs : ∀ sighting ∈ type.sightings around, sighting.misnamedType = []) :
    type.misnamed around = [] :=
  type.misnamed_sightings around ▸ Cadence.misnamed_eq_nil (type.references_sightings around) structs

theorem Ty.misnamedOption_eq_nil {annotated : Option Annotation}
    (structs : ∀ sighting ∈ annotationSightings around annotated, sighting.misnamedType = []) :
    Ty.misnamedOption around annotated = [] :=
  Ty.misnamed_annotationSightings around annotated ▸
    Cadence.misnamed_eq_nil (Ty.references_annotationSightings around annotated) structs

theorem Member.misnamed_eq_nil {members : List Member}
    (structs : ∀ sighting ∈ Member.sightings around members, sighting.misnamedType = []) :
    Member.misnamed around members = [] :=
  Member.misnamed_sightings around members ▸
    Cadence.misnamed_eq_nil (Member.references_sightings around members) structs

theorem ProcedureHead.misnamed_eq_nil {head : ProcedureHead}
    (structs : ∀ sighting ∈ head.sightings around, sighting.misnamedType = []) :
    head.misnamed around = [] :=
  head.misnamed_sightings around ▸ Cadence.misnamed_eq_nil (head.references_sightings around) structs

end Structs

/-- The names that are used in a plan. -/
def Plan.sightings (around : Environment) : Plan → List Sighting
  | value _ => []
  | stated type => type.sightings around
  | reference _ name symbol => [.reference around name symbol]
  | .field _ target _ => target.sightings around
  | expression _ inner => inner.sightings around
  | external head => head.sightings (insideExternal around head)
  | procedure head body =>
    let inside := insideProcedure around head body
    head.sightings inside ++ body.sightings (inside.enter (Member.declarations head.parameters))
  | struct declared => Member.sightings (insideStruct around declared) declared.fields
  | binding head initial => annotationSightings around head.type ++ initial.sightings around
  | combine _ first second =>
    first.sightings around ++ second.sightings (around.declare first.declarations)

/-- The names that are misused in a plan are misused where they are used. -/
theorem Plan.misnamed_sightings (around : Environment) (plan : Plan) :
    (plan.sightings around).flatMap Sighting.misnamed = plan.misnamed around := by
  induction plan generalizing around with
  | value => rfl
  | stated type => exact type.misnamed_sightings around
  | reference => exact List.flatMap_singleton _ _
  | field span target name ih => exact ih around
  | expression span inner ih => exact ih around
  | external head => exact head.misnamed_sightings _
  | procedure head body ih =>
    rw [sightings, List.flatMap_append, head.misnamed_sightings, ih, misnamed]
  | struct declared => exact Member.misnamed_sightings _ declared.fields
  | binding head initial ih =>
    rw [sightings, List.flatMap_append, Ty.misnamed_annotationSightings, ih, misnamed]
  | combine rule first second ihFirst ihSecond =>
    rw [sightings, List.flatMap_append, ihFirst, ihSecond, misnamed]

/-- The names in a plan that stand for types denote structs. -/
def Plan.DenotesStructs (around : Environment) (plan : Plan) : Prop :=
  ∀ sighting ∈ plan.sightings around, sighting.misnamedType = []

theorem Plan.denotesStructs_of_misnamed {plan : Plan} {around : Environment}
    (right : plan.misnamed around = []) : plan.DenotesStructs around := by
  rw [← misnamed_sightings, List.flatMap_eq_nil_iff] at right
  exact fun sighting member => Sighting.misnamedType_eq_nil (right sighting member)

mutual

/-- The names that are used in a tree are those that are used in its plan. -/
theorem Node.sightings_plan (around : Environment) (node : Node) :
    node.plan.sightings around = node.sightings around := by
  cases node with
  | procedure span head body =>
    cases body with
    | none => rfl
    | some body =>
      rw [Node.sightings, Node.plan, Plan.sightings, Plan.insideProcedure, body.declarations_plan,
        Expr.sightings_plan _ body]
  | struct | load => rfl
  | binding span head initializer =>
    rw [Node.sightings, Node.plan, Plan.sightings, Expr.sightings_planOption around initializer]
  | expression inner => exact Expr.sightings_plan around inner
  | assignment span target operator value =>
    rw [Node.sightings, Node.plan, Plan.sightings, Expr.sightings_plan around target,
      Expr.sightings_plan _ value, target.declarations_plan]

theorem Expr.sightings_plan (around : Environment) (expression : Expr) :
    expression.plan.sightings around = expression.sightings around := by
  obtain ⟨info, form⟩ := expression
  exact Form.sightings_plan around form info

theorem Form.sightings_plan (around : Environment) (form : Form) (info : ExprInfo) :
    (form.plan info).sightings around = form.sightings around := by
  -- the parts are seen in the same order, each behind what those in front of it declare
  cases form with
  | reference | bool | integer | real | text | character | uninitialized => rfl
  | field target field => exact Expr.sightings_plan around target
  | call callee arguments =>
    simp only [Form.sightings, Form.plan, Plan.sightings, Expr.sightings_plan around callee,
      Expr.sightings_planAll _ arguments, callee.declarations_plan]
  | binary left operator right =>
    simp only [Form.sightings, Form.plan, Plan.sightings, Expr.sightings_plan around left,
      Expr.sightings_plan _ right, left.declarations_plan]
  | unary operator operand | delete operand =>
    simp only [Form.sightings, Form.plan, Plan.sightings, Expr.sightings_plan around operand,
      List.append_nil]
  | cast operand type =>
    simp only [Form.sightings, Form.plan, Plan.sightings, Expr.sightings_plan around operand,
      operand.declarations_plan]
  | block nodes => exact Node.sightings_planAll around nodes
  | conditional isNegated condition consequent alternative =>
    simp only [Form.sightings, Form.plan, Plan.sightings, Expr.sightings_plan around condition,
      Expr.sightings_plan _ consequent, Expr.sightings_planOption _ alternative,
      condition.declarations_plan, consequent.declarations_plan]
  | loop isNegated condition body alternative =>
    simp only [Form.sightings, Form.plan, Plan.sightings, Expr.sightings_plan around condition,
      Expr.sightings_plan _ body, Expr.sightings_planOption _ alternative,
      condition.declarations_plan, body.declarations_plan]
  | new type => simp only [Form.sightings, Form.plan, Plan.sightings, List.append_nil]
  | defer node =>
    simp only [Form.sightings, Form.plan, Plan.sightings, Node.sightings_plan around node,
      List.append_nil]

theorem Expr.sightings_planOption (around : Environment) (expression : Option Expr) :
    (Expr.planOption expression).sightings around = Expr.sightingsOption around expression := by
  cases expression with
  | none => rfl
  | some inner => exact Expr.sightings_plan around inner

theorem Expr.sightings_planAll (around : Environment) (expressions : List Expr) :
    (Expr.planAll expressions).sightings around = Expr.sightingsAll around expressions := by
  cases expressions with
  | nil => rfl
  | cons first rest =>
    rw [Expr.sightingsAll, Expr.planAll, Plan.sightings, Expr.sightings_plan around first,
      Expr.sightings_planAll _ rest, first.declarations_plan]

theorem Node.sightings_planAll (around : Environment) (nodes : List Node) :
    (Node.planAll nodes).sightings around = Node.sightingsAll around nodes := by
  cases nodes with
  | nil => rfl
  | cons first rest =>
    rw [Node.sightingsAll, Node.planAll, Plan.sightings, Node.sightings_plan around first,
      Node.sightings_planAll _ rest, first.declarations_plan]

end

mutual

/-- The names that stand for values are the expressions that are references. -/
theorem Node.references_sightings (around : Environment) (node : Node) :
    (node.sightings around).filterMap Sighting.reference? =
      node.expressions.filterMap Expr.reference? := by
  cases node with
  | procedure span head body =>
    cases body with
    | none => exact head.references_sightings _
    | some body => simp [Node.sightings, Node.expressions, Expr.expressionsOption,
        Expr.references_sightings _ body]
  | struct span declared => exact Member.references_sightings _ declared.fields
  | binding span head initializer =>
    simp [Node.sightings, Node.expressions, Expr.references_sightingsOption around initializer]
  | load => rfl
  | expression inner => exact Expr.references_sightings around inner
  | assignment span target operator value =>
    simp [Node.sightings, Node.expressions, Expr.references_sightings around target,
      Expr.references_sightings _ value]

theorem Expr.references_sightings (around : Environment) (expression : Expr) :
    (expression.sightings around).filterMap Sighting.reference? =
      expression.expressions.filterMap Expr.reference? := by
  obtain ⟨info, form⟩ := expression
  rw [Expr.expressions, List.filterMap_append]
  exact Form.references_sightings around form info

theorem Form.references_sightings (around : Environment) (form : Form) (info : ExprInfo) :
    (form.sightings around).filterMap Sighting.reference? =
      form.expressions.filterMap Expr.reference? ++
        [Expr.mk info form].filterMap Expr.reference? := by
  -- a reference is sighted where it stands, and the sightings of names in types are none
  cases form with
  | reference binder symbol => rfl
  | field target field =>
    simp [Form.sightings, Form.expressions, Expr.references_sightings around target, Expr.reference?,
      Expr.form]
  | call callee arguments =>
    simp [Form.sightings, Form.expressions, Expr.references_sightings around callee,
      Expr.references_sightingsAll _ arguments, Expr.reference?, Expr.form]
  | binary left operator right =>
    simp [Form.sightings, Form.expressions, Expr.references_sightings around left,
      Expr.references_sightings _ right, Expr.reference?, Expr.form]
  | unary operator operand | delete operand =>
    simp [Form.sightings, Form.expressions, Expr.references_sightings around operand,
      Expr.reference?, Expr.form]
  | cast operand type =>
    simp [Form.sightings, Form.expressions, Expr.references_sightings around operand,
      Ty.references_sightings, Expr.reference?, Expr.form]
  | block nodes =>
    simp [Form.sightings, Form.expressions, Node.references_sightingsAll around nodes,
      Expr.reference?, Expr.form]
  | conditional isNegated condition consequent alternative =>
    simp [Form.sightings, Form.expressions, Expr.references_sightings around condition,
      Expr.references_sightings _ consequent, Expr.references_sightingsOption _ alternative,
      Expr.reference?, Expr.form]
  | loop isNegated condition body alternative =>
    simp [Form.sightings, Form.expressions, Expr.references_sightings around condition,
      Expr.references_sightings _ body, Expr.references_sightingsOption _ alternative,
      Expr.reference?, Expr.form]
  | new type =>
    simp [Form.sightings, Form.expressions, Ty.references_sightings, Expr.reference?, Expr.form]
  | defer node =>
    simp [Form.sightings, Form.expressions, Node.references_sightings around node, Expr.reference?,
      Expr.form]
  | bool | integer | real | text | character | uninitialized => rfl

theorem Expr.references_sightingsOption (around : Environment) (expression : Option Expr) :
    (Expr.sightingsOption around expression).filterMap Sighting.reference? =
      (Expr.expressionsOption expression).filterMap Expr.reference? := by
  cases expression with
  | none => rfl
  | some inner => exact Expr.references_sightings around inner

theorem Expr.references_sightingsAll (around : Environment) (expressions : List Expr) :
    (Expr.sightingsAll around expressions).filterMap Sighting.reference? =
      (Expr.expressionsAll expressions).filterMap Expr.reference? := by
  cases expressions with
  | nil => rfl
  | cons first rest =>
    rw [Expr.sightingsAll, List.filterMap_append, Expr.references_sightings around first,
      Expr.references_sightingsAll _ rest, Expr.expressionsAll, List.filterMap_append]

theorem Node.references_sightingsAll (around : Environment) (nodes : List Node) :
    (Node.sightingsAll around nodes).filterMap Sighting.reference? =
      (Node.expressionsAll nodes).filterMap Expr.reference? := by
  cases nodes with
  | nil => rfl
  | cons first rest =>
    rw [Node.sightingsAll, List.filterMap_append, Node.references_sightings around first,
      Node.references_sightingsAll _ rest, Node.expressionsAll, List.filterMap_append]

end

/-- The names that are used in some files are those that are used in their plans. -/
theorem sightings_sequence (around : Environment) (files : List (List Node)) :
    (Plan.sequence (files.map Node.planAll)).sightings around = fileSightings around files := by
  induction files generalizing around with
  | nil => rfl
  | cons first rest ih =>
    rw [fileSightings, List.map_cons, Plan.sequence, Plan.sightings, Node.sightings_planAll, ih,
      Node.declarations_planAll]

theorem misnamed_fileSightings (around : Environment) (files : List (List Node)) :
    (fileSightings around files).flatMap Sighting.misnamed =
      (Plan.sequence (files.map Node.planAll)).misnamed around := by
  rw [← sightings_sequence, Plan.misnamed_sightings]

theorem references_fileSightings (around : Environment) (files : List (List Node)) :
    (fileSightings around files).filterMap Sighting.reference? =
      (files.flatMap Node.expressionsAll).filterMap Expr.reference? := by
  induction files generalizing around with
  | nil => rfl
  | cons first rest ih =>
    rw [fileSightings, List.filterMap_append, Node.references_sightingsAll, ih, List.flatMap_cons,
      List.filterMap_append]

end Cadence
