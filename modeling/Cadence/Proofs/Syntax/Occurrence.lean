import Cadence.Syntax.Tree

/-!
# The places in a syntax tree

Every node apart from those of the file itself is a part of another one and has a role there. An
expression inside another one counts as a node that consists of it alone. A place is the way from a
node to the file, innermost step first, so that there is one node at a place at most.
-/
namespace Cadence

/-- What a node is to the node that it is a part of. -/
inductive NodeRole where
  /-- A node of the file itself. -/
  | topLevel
  | callee
  | argument
  | infixOperand
  | prefixOperand
  | castOperand
  /-- What a field is asked of. -/
  | fieldTarget
  | deleteOperand
  /-- The condition of a conditional or of a loop. -/
  | condition
  /-- Either side of an assignment. -/
  | side
  | initializer
  /-- The body of a procedure with a written result, if there is one. -/
  | body (result : Option Annotation)
  /-- A node of a block with further ones behind it. -/
  | earlier
  | last
  /-- What a conditional comes down to. -/
  | branch
  /-- The body or the alternative of a loop. -/
  | loopPart
  | deferred
  deriving BEq, Repr

namespace NodeRole

/-- Whether the value of a part is put to use by the whole. -/
def isOperand : NodeRole → Bool
  | callee | argument | infixOperand | prefixOperand | castOperand | fieldTarget | deleteOperand
  | condition | side | initializer => true
  | topLevel | body _ | earlier | last | branch | loopPart | deferred => false

/-- The nodes of a block with their roles. -/
def ofBlock : List Node → List (NodeRole × Node)
  | [] => []
  | [node] => [(last, node)]
  | first :: second :: rest => (earlier, first) :: ofBlock (second :: rest)

/-- The parts of one role. -/
def ofExpressions (role : NodeRole) (expressions : List Expr) : List (NodeRole × Node) :=
  expressions.map fun expression => (role, .expression expression)

end NodeRole

/-- The parts of an expression of some form, with their roles. -/
def Form.parts : Form → List (NodeRole × Node)
  | .field target _ => [(.fieldTarget, .expression target)]
  | .call callee arguments => (.callee, .expression callee) :: NodeRole.argument.ofExpressions arguments
  | .binary left _ right => NodeRole.infixOperand.ofExpressions [left, right]
  | .unary _ operand => [(.prefixOperand, .expression operand)]
  | .cast operand _ => [(.castOperand, .expression operand)]
  | .block nodes => NodeRole.ofBlock nodes
  | .conditional _ condition consequent alternative =>
    (.condition, .expression condition) ::
      NodeRole.branch.ofExpressions (consequent :: alternative.toList)
  | .loop _ condition body alternative =>
    (.condition, .expression condition) :: NodeRole.loopPart.ofExpressions (body :: alternative.toList)
  | .delete operand => [(.deleteOperand, .expression operand)]
  | .defer node => [(.deferred, node)]
  | .bool _ | .integer _ _ | .real _ | .text _ | .character _ | .reference _ _ | .new _
  | .uninitialized => []

/-- The parts of a node, with their roles. -/
def Node.parts : Node → List (NodeRole × Node)
  | .procedure _ head body => (NodeRole.body head.result).ofExpressions body.toList
  | .struct _ _ | .load _ _ => []
  | .binding _ _ initializer => NodeRole.initializer.ofExpressions initializer.toList
  | .expression inner => inner.form.parts
  | .assignment _ target _ value => NodeRole.side.ofExpressions [target, value]

/-- A step from a whole to one of its parts. -/
structure PartStep where
  /-- The number of the parts in front. -/
  index : Nat
  role : NodeRole
  deriving BEq, Repr

/-- There is a node at a place in a file. -/
inductive Occurs (nodes : List Node) : List PartStep → Node → Prop
  | top {index : Nat} {node : Node} : nodes[index]? = some node → Occurs nodes [⟨index, .topLevel⟩] node
  | part {place : List PartStep} {whole : Node} {index : Nat} {role : NodeRole} {node : Node} :
      Occurs nodes place whole → whole.parts[index]? = some (role, node) →
      Occurs nodes (⟨index, role⟩ :: place) node

/-- There is only one node at a place. -/
theorem Occurs.unique {nodes : List Node} {place : List PartStep} {left right : Node}
    (first : Occurs nodes place left) (second : Occurs nodes place right) : left = right := by
  induction first generalizing right with
  | top found =>
    cases second with
    | top other => exact Option.some.inj (found.symm.trans other)
    | part whole _ => cases whole
  | part _ found ih =>
    cases second with
    | top _ => contradiction
    | part whole other =>
      obtain rfl := ih whole
      exact congrArg Prod.snd (Option.some.inj (found.symm.trans other))

end Cadence
