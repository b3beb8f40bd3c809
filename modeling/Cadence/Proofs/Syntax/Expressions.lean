import Cadence.Proofs.Syntax.Types

/-!
# The expressions in a tree

All expressions in a tree, each one behind its parts, which is the order in which a walk over the
tree is done with them.
-/
namespace Cadence

mutual

/-- The expressions in a node, each behind its parts. -/
def Node.expressions : Node → List Expr
  | .procedure _ _ body => Expr.expressionsOption body
  | .struct _ _ | .load _ _ => []
  | .binding _ _ initializer => Expr.expressionsOption initializer
  | .expression inner => inner.expressions
  | .assignment _ target _ value => target.expressions ++ value.expressions

def Expr.expressions : Expr → List Expr
  | .mk info form => form.expressions ++ [.mk info form]

def Form.expressions : Form → List Expr
  | .field target _ => target.expressions
  | .call callee arguments => callee.expressions ++ Expr.expressionsAll arguments
  | .binary left _ right => left.expressions ++ right.expressions
  | .unary _ operand => operand.expressions
  | .cast operand _ => operand.expressions
  | .block nodes => Node.expressionsAll nodes
  | .conditional _ condition consequent alternative =>
    condition.expressions ++ (consequent.expressions ++ Expr.expressionsOption alternative)
  | .loop _ condition body alternative =>
    condition.expressions ++ (body.expressions ++ Expr.expressionsOption alternative)
  | .delete operand => operand.expressions
  | .defer node => node.expressions
  | .bool _ | .integer _ _ | .real _ | .text _ | .character _ | .reference _ _ | .new _
  | .uninitialized => []

def Expr.expressionsOption : Option Expr → List Expr
  | none => []
  | some inner => inner.expressions

def Expr.expressionsAll : List Expr → List Expr
  | [] => []
  | first :: rest => first.expressions ++ Expr.expressionsAll rest

def Node.expressionsAll : List Node → List Expr
  | [] => []
  | first :: rest => first.expressions ++ Node.expressionsAll rest

end

theorem Node.expressionsAll_eq (nodes : List Node) :
    Node.expressionsAll nodes = nodes.flatMap Node.expressions := by
  induction nodes with
  | nil => rfl
  | cons first rest ih => simp [expressionsAll, ih]

section Types

variable {holds : Ty → Prop}

mutual

theorem Node.AllTypes.expressions {node : Node} (types : node.AllTypes holds) :
    ∀ inner ∈ node.expressions, ∀ type ∈ inner.type, holds type := by
  cases node with
  | procedure span head body => exact Expr.allTypesOption_expressions types.2
  | struct | load => nofun
  | binding span head initializer => exact Expr.allTypesOption_expressions types.2
  | expression inner => exact Expr.AllTypes.expressions types
  | assignment span target operator value =>
    exact List.forall_mem_append.mpr ⟨types.1.expressions, types.2.expressions⟩

theorem Expr.AllTypes.expressions {expression : Expr} (types : expression.AllTypes holds) :
    ∀ inner ∈ expression.expressions, ∀ type ∈ inner.type, holds type := by
  obtain ⟨info, form⟩ := expression
  exact List.forall_mem_append.mpr ⟨Form.AllTypes.expressions types.2, List.forall_mem_singleton.mpr types.1⟩

theorem Form.AllTypes.expressions {form : Form} (types : form.AllTypes holds) :
    ∀ inner ∈ form.expressions, ∀ type ∈ inner.type, holds type := by
  cases form with
  | field target name => exact Expr.AllTypes.expressions types
  | call callee arguments =>
    exact List.forall_mem_append.mpr ⟨types.1.expressions, Expr.allTypesAll_expressions types.2⟩
  | binary left operator right =>
    exact List.forall_mem_append.mpr ⟨types.1.expressions, types.2.expressions⟩
  | unary operator operand | delete operand => exact Expr.AllTypes.expressions types
  | cast operand type => exact types.1.expressions
  | block nodes => exact Node.allTypesAll_expressions types
  | conditional isNegated condition consequent alternative =>
    exact List.forall_mem_append.mpr ⟨types.1.expressions,
      List.forall_mem_append.mpr ⟨types.2.1.expressions, Expr.allTypesOption_expressions types.2.2⟩⟩
  | loop isNegated condition body alternative =>
    exact List.forall_mem_append.mpr ⟨types.1.expressions,
      List.forall_mem_append.mpr ⟨types.2.1.expressions, Expr.allTypesOption_expressions types.2.2⟩⟩
  | defer node => exact Node.AllTypes.expressions types
  | bool | integer | real | text | character | reference | new | uninitialized => nofun

theorem Expr.allTypesOption_expressions {expression : Option Expr}
    (types : Expr.AllTypesOption holds expression) :
    ∀ inner ∈ Expr.expressionsOption expression, ∀ type ∈ inner.type, holds type := by
  cases expression with
  | none => nofun
  | some inner => exact Expr.AllTypes.expressions types

theorem Expr.allTypesAll_expressions {expressions : List Expr}
    (types : Expr.AllTypesAll holds expressions) :
    ∀ inner ∈ Expr.expressionsAll expressions, ∀ type ∈ inner.type, holds type := by
  cases expressions with
  | nil => nofun
  | cons first rest =>
    exact List.forall_mem_append.mpr ⟨types.1.expressions, Expr.allTypesAll_expressions types.2⟩

/-- What holds of every type in some nodes holds of those of the expressions. -/
theorem Node.allTypesAll_expressions {nodes : List Node} (types : Node.AllTypesAll holds nodes) :
    ∀ inner ∈ Node.expressionsAll nodes, ∀ type ∈ inner.type, holds type := by
  cases nodes with
  | nil => nofun
  | cons first rest =>
    exact List.forall_mem_append.mpr ⟨types.1.expressions, Node.allTypesAll_expressions types.2⟩

end

end Types

end Cadence
