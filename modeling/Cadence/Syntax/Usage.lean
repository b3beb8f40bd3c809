import Cadence.Syntax.Tree

/-!
# How values are used

The value of an expression is required if something is done with it: operands, arguments,
conditions, initial values and the sides of assignments are, and so is the body of a procedure that
yields a value. The last node of a block and the branches of a conditional expression are required
if the whole is. An expression is in tail position if it is the body of a procedure or the last
node of a block.
-/
namespace Cadence

mutual

/-- Mark how the values in a node are used. If the node is an expression itself, the flags say how
its own value is. -/
def Node.markUsage (required tail : Bool) : Node → Node
  | .procedure span head body =>
    .procedure span head (Expr.markOption head.returnsValue true body)
  | .struct span declared => .struct span declared
  | .binding span head initializer => .binding span head (Expr.markOption true false initializer)
  | .load span path => .load span path
  | .expression inner => .expression (inner.markUsage required tail)
  | .assignment span target operator value =>
    .assignment span (target.markUsage true false) operator (value.markUsage true false)

/-- Mark whether an expression is required and in tail position, and the same for its parts. -/
def Expr.markUsage (required tail : Bool) : Expr → Expr
  | .mk info form => .mk { info with required, tail } (form.markUsage required)

/-- Mark the parts of an expression that is required or not. -/
def Form.markUsage (required : Bool) : Form → Form
  | .field target field => .field (target.markUsage true false) field
  | .call callee arguments => .call (callee.markUsage true false) (Expr.markOperands arguments)
  | .binary left operator right =>
    .binary (left.markUsage true false) operator (right.markUsage true false)
  | .unary operator operand => .unary operator (operand.markUsage true false)
  | .cast operand type => .cast (operand.markUsage true false) type
  | .block nodes => .block (Node.markSequence required nodes)
  | .conditional isNegated condition consequent alternative =>
    .conditional isNegated (condition.markUsage true false) (consequent.markUsage required false)
      (Expr.markOption required false alternative)
  | .loop isNegated condition body alternative =>
    .loop isNegated (condition.markUsage true false) (body.markUsage false false)
      (Expr.markOption false false alternative)
  | .delete operand => .delete (operand.markUsage true false)
  | .defer node => .defer (node.markUsage false false)
  | .bool value => .bool value
  | .integer value radix => .integer value radix
  | .real literal => .real literal
  | .text content => .text content
  | .character character => .character character
  | .reference binder symbol => .reference binder symbol
  | .new type => .new type
  | .uninitialized => .uninitialized

def Expr.markOption (required tail : Bool) : Option Expr → Option Expr
  | none => none
  | some inner => some (inner.markUsage required tail)

def Expr.markOperands : List Expr → List Expr
  | [] => []
  | first :: rest => first.markUsage true false :: Expr.markOperands rest

/-- Mark the nodes of a block, of which only the last one determines the value. -/
def Node.markSequence (required : Bool) : List Node → List Node
  | [] => []
  | [last] => [last.markUsage required true]
  | first :: second :: rest =>
    first.markUsage false false :: Node.markSequence required (second :: rest)

end

end Cadence
