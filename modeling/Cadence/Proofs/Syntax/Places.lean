import Cadence.Symbol.Registration

/-!
# The places that reports on a tree point at

A report on a tree points at names and at expressions: where a name is declared or referred to, or
what a field is asked of. A declaration without a name stands for itself. How values are used does not
change these places.
-/
namespace Cadence

open Source (Span)

mutual

/-- The places of the names in a type that is written down. -/
def Ty.places : Ty → List Span
  | .builtin _ | .struct _ _ => []
  | .pointer target => target.places
  | .procedure parameters _ result => Ty.parameterPlaces parameters ++ result.places
  | .named path _ => [path.span]

def Ty.parameterPlaces : List (Option String × Ty) → List Span
  | [] => []
  | (_, type) :: rest => type.places ++ Ty.parameterPlaces rest

end

def Annotation.places (annotated : Annotation) : List Span :=
  annotated.span :: annotated.value.places

def Member.places (member : Member) : List Span := member.binder.span :: member.type.places

def ProcedureHead.places (head : ProcedureHead) (span : Span) : List Span :=
  (Registration.named head.binder span).span ::
    (head.parameters.flatMap Member.places ++ head.result.toList.flatMap Annotation.places)

def Struct.places (declared : Struct) (span : Span) : List Span :=
  (Registration.named declared.binder span).span :: declared.fields.flatMap Member.places

def BindingHead.places (head : BindingHead) : List Span :=
  head.binder.span :: head.type.toList.flatMap Annotation.places

mutual

/-- The places in a node that a report can point at. -/
def Node.places : Node → List Span
  | .procedure span head body => head.places span ++ Expr.placesOption body
  | .struct span declared => declared.places span
  | .binding _ head initializer => head.places ++ Expr.placesOption initializer
  | .load _ path => [path.span]
  | .expression inner => inner.places
  | .assignment _ target _ value => target.places ++ value.places

def Expr.places : Expr → List Span
  | .mk info form => info.span :: form.places

def Form.places : Form → List Span
  | .reference binder _ => [binder.span]
  | .field target field => target.places ++ [field.span]
  | .call callee arguments => callee.places ++ Expr.placesAll arguments
  | .binary left _ right => left.places ++ right.places
  | .unary _ operand => operand.places
  | .cast operand type => operand.places ++ type.places
  | .block nodes => Node.placesAll nodes
  | .conditional _ condition consequent alternative =>
    condition.places ++ (consequent.places ++ Expr.placesOption alternative)
  | .loop _ condition body alternative =>
    condition.places ++ (body.places ++ Expr.placesOption alternative)
  | .new type => type.places
  | .delete operand => operand.places
  | .defer node => node.places
  | .bool _ | .integer _ _ | .real _ | .text _ | .character _ | .uninitialized => []

def Expr.placesOption : Option Expr → List Span
  | none => []
  | some inner => inner.places

def Expr.placesAll : List Expr → List Span
  | [] => []
  | first :: rest => first.places ++ Expr.placesAll rest

def Node.placesAll : List Node → List Span
  | [] => []
  | first :: rest => first.places ++ Node.placesAll rest

end

theorem Ty.parameterPlaces_eq (parameters : List (Option String × Ty)) :
    Ty.parameterPlaces parameters = parameters.flatMap fun parameter => parameter.2.places := by
  induction parameters with
  | nil => rfl
  | cons first rest ih => rw [parameterPlaces, ih, List.flatMap_cons]

theorem Expr.placesAll_eq (expressions : List Expr) :
    Expr.placesAll expressions = expressions.flatMap Expr.places := by
  induction expressions with
  | nil => rfl
  | cons first rest ih => rw [placesAll, ih, List.flatMap_cons]

theorem Node.placesAll_eq (nodes : List Node) : Node.placesAll nodes = nodes.flatMap Node.places := by
  induction nodes with
  | nil => rfl
  | cons first rest ih => rw [placesAll, ih, List.flatMap_cons]

theorem Expr.placesOption_eq (expression : Option Expr) :
    Expr.placesOption expression = expression.toList.flatMap Expr.places := by
  cases expression <;> simp [placesOption]

theorem Expr.mem_places (expression : Expr) : expression.span ∈ expression.places := by
  obtain ⟨info, form⟩ := expression
  exact List.mem_cons_self

/-- The type of a procedure has the names that its parameters and its result have. -/
theorem ProcedureHead.places_type (head : ProcedureHead) (span : Span) :
    head.type.places ⊆ head.places span := by
  have parameters : Ty.parameterPlaces (head.parameters.map fun parameter =>
      (Ty.parameterName? parameter.binder.value, parameter.type.value)) ⊆
        head.parameters.flatMap Member.places := by
    rw [Ty.parameterPlaces_eq, List.flatMap_map]
    intro place member
    obtain ⟨parameter, known, inside⟩ := List.mem_flatMap.mp member
    exact List.mem_flatMap.mpr ⟨parameter, known, by simp [Member.places, Annotation.places, inside]⟩
  have result : ((head.result.map Spanned.value).getD .void).places ⊆
      head.result.toList.flatMap Annotation.places := by
    cases head.result with
    | none => exact List.nil_subset _
    | some result => simp [ Annotation.places]
  intro place member
  rcases List.mem_append.mp member with first | second
  · exact List.mem_cons_of_mem _ (List.mem_append_left _ (parameters first))
  · exact List.mem_cons_of_mem _ (List.mem_append_right _ (result second))

section Heads

variable {holds : Span → Prop} {span : Span}

theorem ProcedureHead.forall_places {head : ProcedureHead} :
    (∀ place ∈ head.places span, holds place) ↔ holds (Registration.named head.binder span).span ∧
      (∀ parameter ∈ head.parameters, ∀ place ∈ parameter.places, holds place) ∧
        ∀ result ∈ head.result, ∀ place ∈ result.places, holds place := by
  rw [places, List.forall_mem_cons, List.forall_mem_append, List.forall_mem_flatMap,
    List.forall_mem_flatMap]
  simp only [Option.mem_toList, Option.mem_def]

theorem Struct.forall_places {declared : Struct} :
    (∀ place ∈ declared.places span, holds place) ↔
      holds (Registration.named declared.binder span).span ∧
        ∀ field ∈ declared.fields, ∀ place ∈ field.places, holds place := by
  rw [places, List.forall_mem_cons, List.forall_mem_flatMap]

theorem BindingHead.forall_places {head : BindingHead} :
    (∀ place ∈ head.places, holds place) ↔
      holds head.binder.span ∧ ∀ type ∈ head.type, ∀ place ∈ type.places, holds place := by
  rw [places, List.forall_mem_cons, List.forall_mem_flatMap]
  simp only [Option.mem_toList, Option.mem_def]

end Heads

mutual

theorem Node.places_markUsage (required tail : Bool) (node : Node) :
    (node.markUsage required tail).places = node.places := by
  cases node with
  | procedure span head body => simp only [Node.markUsage, Node.places, Expr.places_markOption]
  | struct | load => rfl
  | binding span head initializer =>
    simp only [Node.markUsage, Node.places, Expr.places_markOption]
  | expression inner => simp only [Node.markUsage, Node.places, inner.places_markUsage]
  | assignment span target operator value =>
    simp only [Node.markUsage, Node.places, target.places_markUsage, value.places_markUsage]

theorem Expr.places_markUsage (required tail : Bool) (expression : Expr) :
    (expression.markUsage required tail).places = expression.places := by
  obtain ⟨info, form⟩ := expression
  simp only [Expr.markUsage, Expr.places, form.places_markUsage]

theorem Form.places_markUsage (required : Bool) (form : Form) :
    (form.markUsage required).places = form.places := by
  cases form with
  | field target name => simp only [Form.markUsage, Form.places, target.places_markUsage]
  | call callee arguments =>
    simp only [Form.markUsage, Form.places, callee.places_markUsage, Expr.places_markOperands]
  | binary left operator right =>
    simp only [Form.markUsage, Form.places, left.places_markUsage, right.places_markUsage]
  | unary operator operand | delete operand =>
    simp only [Form.markUsage, Form.places, operand.places_markUsage]
  | cast operand type => simp only [Form.markUsage, Form.places, operand.places_markUsage]
  | block nodes => simp only [Form.markUsage, Form.places, Node.places_markSequence]
  | conditional isNegated condition consequent alternative =>
    simp only [Form.markUsage, Form.places, condition.places_markUsage,
      consequent.places_markUsage, Expr.places_markOption]
  | loop isNegated condition body alternative =>
    simp only [Form.markUsage, Form.places, condition.places_markUsage, body.places_markUsage,
      Expr.places_markOption]
  | defer node => simp only [Form.markUsage, Form.places, node.places_markUsage]
  | bool | integer | real | text | character | reference | new | uninitialized => rfl

theorem Expr.places_markOption (required tail : Bool) (expression : Option Expr) :
    Expr.placesOption (Expr.markOption required tail expression) = Expr.placesOption expression := by
  cases expression with
  | none => rfl
  | some inner => simp only [Expr.markOption, Expr.placesOption, inner.places_markUsage]

theorem Expr.places_markOperands (expressions : List Expr) :
    Expr.placesAll (Expr.markOperands expressions) = Expr.placesAll expressions := by
  cases expressions with
  | nil => rfl
  | cons first rest =>
    simp only [Expr.markOperands, Expr.placesAll, first.places_markUsage,
      Expr.places_markOperands rest]

theorem Node.places_markSequence (required : Bool) (nodes : List Node) :
    Node.placesAll (Node.markSequence required nodes) = Node.placesAll nodes := by
  match nodes with
  | [] => rfl
  | [last] => simp only [Node.markSequence, Node.placesAll, last.places_markUsage]
  | first :: second :: rest =>
    simp only [Node.markSequence, Node.placesAll, first.places_markUsage,
      Node.places_markSequence required (second :: rest)]

end

end Cadence
