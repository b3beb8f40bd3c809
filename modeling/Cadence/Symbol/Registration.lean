import Cadence.Symbol.Builder
import Cadence.Syntax.Usage

/-!
# Registration of declarations

Every declaration is given a symbol, in the order of the source code. The parameters of a procedure
and the fields of a struct lie in the scope of its body. The initial value of a binding comes
before the binding itself. A procedure that is defined elsewhere has no body, so its parameters
have no symbols.
-/
namespace Cadence

open Source (Span)

/-- A step in which symbols are added. -/
abbrev Registration := StateM SymbolBuilder

namespace Registration

/-- Add a symbol to the innermost scope. -/
def add (name : String) (kind : SymbolKind) (type : Option Ty) (span : Span) :
    Registration SymbolIndex := fun builder =>
  (builder.nextIndex, builder.add name kind type span)

/-- Register what lies in a scope of its own. -/
def within {α : Type} (span : Span) (content : Registration α) : Registration α := do
  modify (·.enter span)
  let result ← content
  modify SymbolBuilder.leave
  return result

/-- The name and the place of a declaration that should have a name. -/
def named (binder : Option Identifier) (span : Span) : Identifier :=
  binder.getD ⟨Ty.anonymous, span⟩

/-- Register a parameter or a field. -/
def member (member : Member) : Registration Member := do
  let symbol ← add member.binder.value .binding (some member.type.value) member.binder.span
  return { member with symbol := some symbol }

end Registration

open Registration in
mutual

/-- Register all that a node declares. -/
def Node.register : Node → Registration Node
  | .procedure span head none => do
    let binder := named head.binder span
    let symbol ← add binder.value .procedure (some head.type) binder.span
    return .procedure span { head with symbol := some symbol } none
  | .procedure span head (some body) => do
    let binder := named head.binder span
    let symbol ← add binder.value .procedure (some head.type) binder.span
    within body.span do
      let parameters ← head.parameters.mapM member
      let body ← body.register
      return .procedure span { head with parameters, symbol := some symbol } (some body)
  | .struct span declared => do
    let binder := named declared.binder span
    let symbol ← add binder.value .struct (some declared.type) binder.span
    within span do
      let fields ← declared.fields.mapM member
      return .struct span { declared with fields, symbol := some symbol }
  | .binding span head initializer => do
    let initializer ← Expr.registerOption initializer
    let symbol ← add head.binder.value .binding (head.type.map Spanned.value) head.binder.span
    return .binding span { head with symbol := some symbol } initializer
  | .load span path => return .load span path
  | .expression inner => return .expression (← inner.register)
  | .assignment span target operator value => do
    return .assignment span (← target.register) operator (← value.register)

def Expr.register : Expr → Registration Expr
  | .mk info form => return .mk info (← form.register)

def Form.register : Form → Registration Form
  | .field target field => return .field (← target.register) field
  | .call callee arguments =>
    return .call (← callee.register) (← Expr.registerAll arguments)
  | .binary left operator right =>
    return .binary (← left.register) operator (← right.register)
  | .unary operator operand => return .unary operator (← operand.register)
  | .cast operand type => return .cast (← operand.register) type
  | .block nodes => return .block (← Node.registerAll nodes)
  | .conditional isNegated condition consequent alternative =>
    return .conditional isNegated (← condition.register) (← consequent.register)
      (← Expr.registerOption alternative)
  | .loop isNegated condition body alternative =>
    return .loop isNegated (← condition.register) (← body.register)
      (← Expr.registerOption alternative)
  | .delete operand => return .delete (← operand.register)
  | .defer node => return .defer (← node.register)
  | .bool value => return .bool value
  | .integer value radix => return .integer value radix
  | .real literal => return .real literal
  | .text content => return .text content
  | .character character => return .character character
  | .reference binder symbol => return .reference binder symbol
  | .new type => return .new type
  | .uninitialized => return .uninitialized

def Expr.registerOption : Option Expr → Registration (Option Expr)
  | none => return none
  | some inner => return some (← inner.register)

def Expr.registerAll : List Expr → Registration (List Expr)
  | [] => return []
  | first :: rest => return (← first.register) :: (← Expr.registerAll rest)

def Node.registerAll : List Node → Registration (List Node)
  | [] => return []
  | first :: rest => return (← first.register) :: (← Node.registerAll rest)

end

/-- Files whose declarations have symbols. -/
structure Registered where
  files : List (List Node)
  table : SymbolTable
  deriving BEq, Repr

/-- Mark how values are used in a file and register what it declares. -/
def Registration.file (nodes : List Node) : Registration (List Node) :=
  Node.registerAll (nodes.map (Node.markUsage false false))

/-- Register the files of a unit one after the other. -/
def Registered.ofFiles (files : List (List Node)) : Registered :=
  let (files, builder) := (files.mapM Registration.file).run .start
  ⟨files, builder.table⟩

end Cadence
