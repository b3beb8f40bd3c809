import Cadence.Resolution.Type

/-!
# The walk over the syntax trees

References find the symbols that they denote, and expressions their types. A declaration becomes
known at its end if it is a binding, so that the initial value cannot refer to it, and in front of
its parts otherwise.
-/
namespace Cadence

open Resolving

namespace Ty

/-- The type of the value that a call of a value of a type yields. -/
def result? : Ty → Option Ty
  | procedure _ _ result => some result
  | builtin _ | pointer _ | struct _ _ | named _ _ => none

/-- What a pointer refers to. -/
def target? : Ty → Option Ty
  | pointer target => some target
  | builtin _ | procedure _ _ _ | struct _ _ | named _ _ => none

def bool : Ty := builtin .bool

end Ty

/-- The type of the result of an operator between two operands. -/
def Operator.binaryType (operator : Operator) (left : Option Ty) : Option Ty :=
  match operator.class? with
  | some .logical | some .relational => some .bool
  | _ => left

/-- The type of the result of an operator in front of an operand. -/
def Operator.unaryType (operator : Operator) (operand : Option Ty) : Option Ty :=
  match operator with
  | .bang => some .bool
  | .caret => operand.map .pointer
  | .asterisk => operand.bind Ty.target?
  | _ => operand

/-- The type of a block: that of its last node. -/
def Node.sequenceType (nodes : List Node) : Option Ty :=
  match nodes.getLast? with
  | some (.expression last) => last.type
  | _ => none

/-- The type of a referenced symbol, if there is one. -/
def Resolving.referenceType : Option SymbolIndex → Resolving (Option Ty)
  | none => return none
  | some index => do
    let type := (← symbol index).type
    if type.isNone then defer
    return type

/-- Meet a procedure, find the types of its parameters and its result, and record its own one. -/
def Resolving.procedureHead (head : ProcedureHead) : Resolving (SymbolIndex × ProcedureHead) := do
  let owner ← meet head.symbol
  let parameters ← head.parameters.mapM memberType
  let result ← head.result.mapM annotated
  let head := { head with parameters, result }
  setType owner (some head.type)
  return (owner, head)

mutual

def Node.resolve : Node → Resolving Node
  | .procedure span head body => do
    let (owner, head) ← procedureHead head
    return .procedure span head (← Expr.resolveBody owner head.parameters body)
  | .struct span declared => do
    let owner ← meet declared.symbol
    let fields ← declared.fields.mapM memberType
    let declared := { declared with fields }
    withinBody owner (fields.forM meetMember)
    setType owner (some declared.type)
    return .struct span declared
  | .binding span head initializer => do
    let type ← head.type.mapM annotated
    let initializer ← Expr.resolveOption initializer
    let declared ← meet head.symbol
    setType declared (match type with
      | some type => some type.value
      | none => initializer.bind Expr.type)
    return .binding span { head with type } initializer
  | .load span path => return .load span path
  | .expression inner => return .expression (← inner.resolve)
  | .assignment span target operator value =>
    return .assignment span (← target.resolve) operator (← value.resolve)

def Expr.resolve : Expr → Resolving Expr
  | .mk info form => do
    let (form, type) ← form.resolve info.type
    return .mk { info with type } form

/-- Resolve the parts of an expression, whose type may be known, and find its type. -/
def Form.resolve (known : Option Ty) : Form → Resolving (Form × Option Ty)
  | .reference binder _ => do
    let found ← reference binder
    return (.reference binder found, ← referenceType found)
  | .field target field => do
    let target ← target.resolve
    return (.field target field, ← fieldType target field)
  | .call callee arguments => do
    let callee ← callee.resolve
    let arguments ← Expr.resolveAll arguments
    return (.call callee arguments, callee.type.bind Ty.result?)
  | .binary left operator right => do
    let left ← left.resolve
    let right ← right.resolve
    return (.binary left operator right, operator.value.binaryType left.type)
  | .unary operator operand => do
    let operand ← operand.resolve
    return (.unary operator operand, operator.value.unaryType operand.type)
  | .cast operand type => do
    let operand ← operand.resolve
    let type ← annotated type
    return (.cast operand type, some type.value)
  | .block nodes => do
    let nodes ← Node.resolveAll nodes
    return (.block nodes, Node.sequenceType nodes)
  | .conditional isNegated condition consequent alternative => do
    let condition ← condition.resolve
    let consequent ← consequent.resolve
    let alternative ← Expr.resolveOption alternative
    return (.conditional isNegated condition consequent alternative,
      alternative.bind fun _ => consequent.type)
  | .loop isNegated condition body alternative => do
    let condition ← condition.resolve
    let body ← body.resolve
    let alternative ← Expr.resolveOption alternative
    return (.loop isNegated condition body alternative, none)
  | .new type => do
    let type ← annotated type
    return (.new type, some (.pointer type.value))
  | .delete operand => do
    let operand ← operand.resolve
    return (.delete operand, none)
  | .defer node => do
    let node ← node.resolve
    return (.defer node, none)
  | .bool value => return (.bool value, known)
  | .integer value radix => return (.integer value radix, known)
  | .real literal => return (.real literal, known)
  | .text content => return (.text content, known)
  | .character character => return (.character character, known)
  | .uninitialized => return (.uninitialized, known)

/-- Resolve the body of a procedure, if there is one. -/
def Expr.resolveBody (owner : SymbolIndex) (parameters : List Member) :
    Option Expr → Resolving (Option Expr)
  | none => return none
  | some body =>
    withinBody owner do
      parameters.forM meetMember
      return some (← body.resolve)

def Expr.resolveOption : Option Expr → Resolving (Option Expr)
  | none => return none
  | some inner => return some (← inner.resolve)

def Expr.resolveAll : List Expr → Resolving (List Expr)
  | [] => return []
  | first :: rest => return (← first.resolve) :: (← Expr.resolveAll rest)

def Node.resolveAll : List Node → Resolving (List Node)
  | [] => return []
  | first :: rest => return (← first.resolve) :: (← Node.resolveAll rest)

end

end Cadence
