import Cadence.Parse.File
import Cadence.Proofs.Syntax.Names

/-!
# Parsed trees are well formed

What later passes may rely on in every tree that a parser yields, even if it has reported errors:
operators stand where they can stand, assignments go to places, an explicit lack of a value is
nothing but an initial value, and nothing is recorded yet except for the types of expressions that
say them.
-/
namespace Cadence

open Source (File Span)

/-- What a compound assignment applies can stand between two operands. -/
theorem Operator.isSome_precedence_of_applied {sign applied : Operator}
    (known : sign.applied? = some applied) : applied.precedence?.isSome := by
  cases sign with
  | plusAssign | minusAssign | asteriskAssign | slashAssign | percentAssign | backslashAssign
  | shiftLeftAssign | shiftRightAssign | ampersandAssign | pipeAssign | tildeAssign =>
    obtain rfl := Option.some.inj known
    rfl
  | _ => cases known

/-- No name within the type is resolved yet. -/
def Ty.IsUnbound : Ty → Prop := Ty.AllNames fun _ symbol => symbol = none

def Member.IsWellFormed (member : Member) : Prop :=
  member.symbol = none ∧ member.type.value.IsWritten

structure ProcedureHead.IsWellFormed (head : ProcedureHead) : Prop where
  symbol : head.symbol = none
  parameters : ∀ parameter ∈ head.parameters, parameter.IsWellFormed
  result : ∀ result ∈ head.result, result.value.IsWritten

structure Struct.IsWellFormed (struct : Struct) : Prop where
  symbol : struct.symbol = none
  fields : ∀ field ∈ struct.fields, field.IsWellFormed

structure BindingHead.IsWellFormed (head : BindingHead) : Prop where
  symbol : head.symbol = none
  type : ∀ type ∈ head.type, type.value.IsWritten

/-- The type that a form of an expression says by itself. -/
def Form.statedType? : Form → Option Ty
  | .bool _ => some (.builtin .bool)
  | .integer _ _ => some (.builtin .int)
  | .real _ => some (.builtin .real)
  | .text _ => some (.pointer (.builtin .s8))
  | .character _ => some (.builtin .u32)
  | .cast _ type => some type.value
  | .new type => some (.pointer type.value)
  | _ => none

/-- Nothing is recorded about an expression except for the type that its form says. -/
def ExprInfo.IsUnmarked (info : ExprInfo) (form : Form) : Prop :=
  info.required = false ∧ info.tail = false ∧ info.type = form.statedType?

/-- The explicit lack of an initial value. -/
def Expr.IsUninitialized : Expr → Prop
  | .mk info form => form = .uninitialized ∧ info.IsUnmarked .uninitialized

mutual

def Node.IsWellFormed : Node → Prop
  | .procedure _ head body =>
    head.IsWellFormed ∧ (body = none ↔ head.isExternal = true) ∧ Expr.IsWellFormedOption body
  | .struct _ declared => declared.IsWellFormed
  | .binding _ head initializer => head.IsWellFormed ∧ Expr.IsInitializer initializer
  | .load _ _ => True
  | .expression inner => inner.IsWellFormed
  | .assignment _ target operator value =>
    target.IsWellFormed ∧ target.isPlace = true ∧
      (∀ sign ∈ operator, sign.value.precedence?.isSome) ∧ value.IsWellFormed

def Expr.IsWellFormed : Expr → Prop
  | .mk info form => info.IsUnmarked form ∧ form.IsWellFormed

def Form.IsWellFormed : Form → Prop
  | .field target _ => target.IsWellFormed
  | .call callee arguments => callee.IsWellFormed ∧ Expr.IsWellFormedAll arguments
  | .binary left operator right =>
    left.IsWellFormed ∧ operator.value.precedence?.isSome ∧ right.IsWellFormed
  | .unary operator operand => operator.value.isUnary = true ∧ operand.IsWellFormed
  | .cast operand type => operand.IsWellFormed ∧ type.value.IsWritten
  | .block nodes => Node.IsWellFormedAll nodes
  | .conditional _ condition consequent alternative =>
    condition.IsWellFormed ∧ consequent.IsWellFormed ∧ Expr.IsWellFormedOption alternative
  | .loop _ condition body alternative =>
    condition.IsWellFormed ∧ body.IsWellFormed ∧ Expr.IsWellFormedOption alternative
  | .new type => type.value.IsWritten
  | .delete operand => operand.IsWellFormed
  | .defer node => node.IsWellFormed
  | .reference _ symbol => symbol = none
  | .uninitialized => False
  | .bool _ | .integer _ _ | .real _ | .text _ | .character _ => True

/-- An initial value, or its explicit lack. -/
def Expr.IsInitializer : Option Expr → Prop
  | none => True
  | some inner => inner.IsUninitialized ∨ inner.IsWellFormed

def Expr.IsWellFormedOption : Option Expr → Prop
  | none => True
  | some inner => inner.IsWellFormed

def Expr.IsWellFormedAll : List Expr → Prop
  | [] => True
  | first :: rest => first.IsWellFormed ∧ Expr.IsWellFormedAll rest

def Node.IsWellFormedAll : List Node → Prop
  | [] => True
  | first :: rest => first.IsWellFormed ∧ Node.IsWellFormedAll rest

end

theorem Expr.isWellFormedAll_iff (expressions : List Expr) :
    Expr.IsWellFormedAll expressions ↔ ∀ expression ∈ expressions, expression.IsWellFormed := by
  induction expressions with
  | nil => simp [IsWellFormedAll]
  | cons first rest ih => simp [IsWellFormedAll, ih]

theorem Node.isWellFormedAll_iff (nodes : List Node) :
    Node.IsWellFormedAll nodes ↔ ∀ node ∈ nodes, node.IsWellFormed := by
  induction nodes with
  | nil => simp [IsWellFormedAll]
  | cons first rest ih => simp [IsWellFormedAll, ih]

/-- The type that a well-formed expression says is one that can be written down. -/
theorem ExprInfo.IsUnmarked.allTypes {info : ExprInfo} {form : Form} (unmarked : info.IsUnmarked form)
    (wellFormed : form.IsWellFormed) : ∀ type ∈ info.type, type.IsWritten := by
  -- the type is the one that the form says, which only casts and allocations take from the source
  rw [unmarked.2.2]
  intro type stated
  cases form with
  | cast operand annotated =>
    obtain rfl := Option.some.inj stated
    exact wellFormed.2
  | new annotated =>
    obtain rfl := Option.some.inj stated
    exact ⟨wellFormed.plain, wellFormed.unbound⟩
  | bool | integer | real | text | character =>
    obtain rfl := Option.some.inj stated
    exact ⟨trivial, trivial⟩
  | field | call | binary | unary | block | conditional | loop | delete | defer | reference
  | uninitialized => cases stated

theorem Expr.IsUninitialized.allTypes {expression : Expr} (lacks : expression.IsUninitialized) :
    expression.AllTypes Ty.IsWritten := by
  obtain ⟨info, form⟩ := expression
  obtain ⟨rfl, _, _, type⟩ := lacks
  refine ⟨?_, trivial⟩
  simp [type, Form.statedType?]

mutual

theorem Node.IsWellFormed.allTypes {node : Node} (wellFormed : node.IsWellFormed) :
    node.AllTypes Ty.IsWritten := by
  cases node with
  | procedure span head body =>
    obtain ⟨headFormed, _, bodyFormed⟩ := wellFormed
    exact ⟨⟨fun parameter member => (headFormed.parameters parameter member).2,
      headFormed.result⟩, Expr.allTypes_option bodyFormed⟩
  | struct span declared => exact fun field member => (wellFormed.fields field member).2
  | binding span head initializer =>
    refine ⟨wellFormed.1.type, ?_⟩
    cases initializer with
    | none => trivial
    | some value =>
      -- the explicit lack of a value is not a well-formed expression, and so it is a case of its
      -- own
      rcases wellFormed.2 with lacks | formed
      · exact lacks.allTypes
      · exact formed.allTypes
  | load span path => trivial
  | expression inner => exact Expr.IsWellFormed.allTypes wellFormed
  | assignment span target operator value =>
    exact ⟨wellFormed.1.allTypes, wellFormed.2.2.2.allTypes⟩

theorem Expr.IsWellFormed.allTypes {expression : Expr} (wellFormed : expression.IsWellFormed) :
    expression.AllTypes Ty.IsWritten := by
  obtain ⟨info, form⟩ := expression
  exact ⟨wellFormed.1.allTypes wellFormed.2, wellFormed.2.allTypes⟩

theorem Form.IsWellFormed.allTypes {form : Form} (wellFormed : form.IsWellFormed) :
    form.AllTypes Ty.IsWritten := by
  cases form with
  | field target name => exact Expr.IsWellFormed.allTypes wellFormed
  | call callee arguments => exact ⟨wellFormed.1.allTypes, Expr.allTypes_all wellFormed.2⟩
  | binary left operator right => exact ⟨wellFormed.1.allTypes, wellFormed.2.2.allTypes⟩
  | unary operator operand => exact wellFormed.2.allTypes
  | cast operand type => exact ⟨wellFormed.1.allTypes, wellFormed.2⟩
  | block nodes => exact Node.allTypes_all wellFormed
  | conditional isNegated condition consequent alternative =>
    exact ⟨wellFormed.1.allTypes, wellFormed.2.1.allTypes, Expr.allTypes_option wellFormed.2.2⟩
  | loop isNegated condition body alternative =>
    exact ⟨wellFormed.1.allTypes, wellFormed.2.1.allTypes, Expr.allTypes_option wellFormed.2.2⟩
  | new type => exact wellFormed
  | delete operand => exact Expr.IsWellFormed.allTypes wellFormed
  | defer node => exact Node.IsWellFormed.allTypes wellFormed
  | bool | integer | real | text | character | reference | uninitialized => trivial

theorem Expr.allTypes_option {expression : Option Expr}
    (wellFormed : Expr.IsWellFormedOption expression) :
    Expr.AllTypesOption Ty.IsWritten expression := by
  cases expression with
  | none => trivial
  | some inner => exact Expr.IsWellFormed.allTypes wellFormed

theorem Expr.allTypes_all {expressions : List Expr} (wellFormed : Expr.IsWellFormedAll expressions) :
    Expr.AllTypesAll Ty.IsWritten expressions := by
  cases expressions with
  | nil => trivial
  | cons first rest => exact ⟨wellFormed.1.allTypes, Expr.allTypes_all wellFormed.2⟩

theorem Node.allTypes_all {nodes : List Node} (wellFormed : Node.IsWellFormedAll nodes) :
    Node.AllTypesAll Ty.IsWritten nodes := by
  cases nodes with
  | nil => trivial
  | cons first rest => exact ⟨wellFormed.1.allTypes, Node.allTypes_all wellFormed.2⟩

end

end Cadence
