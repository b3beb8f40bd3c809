import Cadence.Syntax.Type
import Cadence.Token.Basic

/-!
# Syntax trees

A source file is a sequence of nodes: declarations, expressions and assignments. Expressions may
hold further nodes in blocks. Besides what was parsed, the tree has room for what is found out
later: the symbols of declarations, references and type names, the types of expressions, and how
the values of expressions are used.
-/
namespace Cadence

open Source (Span)

/-- What is known about an expression apart from its form. -/
structure ExprInfo where
  span : Span
  /-- The type, if it is known. -/
  type : Option Ty := none
  /-- Whether the value is used. -/
  required : Bool := false
  /-- Whether the expression is the last one of its sequence. -/
  tail : Bool := false
  deriving BEq, Repr

/-- A parameter of a procedure or a field of a struct. -/
structure Member where
  binder : Identifier
  type : Annotation
  symbol : Option SymbolIndex := none
  deriving BEq, Repr

/-- What a declaration of a procedure says in front of the body. -/
structure ProcedureHead where
  /-- The name. It is an error to leave it out. -/
  binder : Option Identifier
  parameters : List Member
  isVariadic : Bool
  result : Option Annotation
  /-- Whether the procedure is defined elsewhere. -/
  isExternal : Bool
  symbol : Option SymbolIndex := none
  deriving BEq, Repr

structure Struct where
  /-- The name. It is an error to leave it out. -/
  binder : Option Identifier
  fields : List Member
  symbol : Option SymbolIndex := none
  deriving BEq, Repr

/-- Whether a binding can be assigned to. -/
inductive BindingKind where
  | let_
  | var
  deriving DecidableEq, Repr

/-- What a binding says in front of its initial value. -/
structure BindingHead where
  kind : BindingKind
  binder : Identifier
  type : Option Annotation
  symbol : Option SymbolIndex := none
  deriving BEq, Repr

mutual

/-- An element of a file or a block. -/
inductive Node where
  | procedure (span : Span) (head : ProcedureHead) (body : Option Expr)
  | struct (span : Span) (struct : Struct)
  | binding (span : Span) (head : BindingHead) (initializer : Option Expr)
  /-- The demand for a further source file. -/
  | load (span : Span) (path : Spanned String)
  | expression (expression : Expr)
  /-- An assignment. The operator, if any, is applied to the old value and the new one. -/
  | assignment (span : Span) (target : Expr) (operator : Option (Spanned Operator)) (value : Expr)
  deriving BEq, Repr

inductive Expr where
  | mk (info : ExprInfo) (form : Form)
  deriving BEq, Repr

/-- The form of an expression. -/
inductive Form where
  | bool (value : Bool)
  | integer (value : Nat) (radix : Radix)
  | real (literal : String)
  | text (content : String)
  | character (character : Char)
  /-- A binding referred to by name. -/
  | reference (binder : Identifier) (symbol : Option SymbolIndex)
  | field (target : Expr) (field : Identifier)
  | call (callee : Expr) (arguments : List Expr)
  | binary (left : Expr) (operator : Spanned Operator) (right : Expr)
  | unary (operator : Spanned Operator) (operand : Expr)
  | cast (operand : Expr) (type : Annotation)
  /-- Nodes in sequence. The value is that of the last one. -/
  | block (nodes : List Node)
  | conditional (isNegated : Bool) (condition consequent : Expr) (alternative : Option Expr)
  /-- A loop. The alternative is for the case that the body is never run. -/
  | loop (isNegated : Bool) (condition body : Expr) (alternative : Option Expr)
  /-- A place on the heap. -/
  | new (type : Annotation)
  | delete (operand : Expr)
  /-- A node that is put off to the end of the enclosing scope. -/
  | defer (node : Node)
  /-- The explicit lack of an initial value. -/
  | uninitialized
  deriving BEq, Repr

end

namespace Expr

def info : Expr → ExprInfo
  | mk info _ => info

def form : Expr → Form
  | mk _ form => form

def span (expression : Expr) : Span := expression.info.span

def type (expression : Expr) : Option Ty := expression.info.type

/-- An expression about which nothing else is known. -/
def ofForm (span : Span) (form : Form) : Expr := mk { span } form

/-- An expression of a known type. -/
def typed (span : Span) (type : Ty) (form : Form) : Expr := mk { span, type := some type } form

def withSpan (expression : Expr) (span : Span) : Expr :=
  mk { expression.info with span } expression.form

/-- Whether the expression denotes a location that can be assigned to. -/
def isPlace (expression : Expr) : Bool :=
  match expression.form with
  | .reference _ _ | .field _ _ => true
  | .unary operator _ => operator.value = .asterisk
  | _ => false

end Expr

namespace Node

def span : Node → Span
  | procedure span _ _ | struct span _ | binding span _ _ | load span _
  | assignment span _ _ _ => span
  | expression inner => inner.span

/-- The symbol that a declaration was given. -/
def symbol? : Node → Option SymbolIndex
  | procedure _ head _ => head.symbol
  | struct _ declared => declared.symbol
  | binding _ head _ => head.symbol
  | load _ _ | expression _ | assignment _ _ _ _ => none

/-- The file that a node demands. -/
def load? : Node → Option (Spanned String)
  | load _ path => some path
  | _ => none

end Node

namespace ProcedureHead

/-- The type of the procedure. -/
def type (head : ProcedureHead) : Ty :=
  .procedure
    (head.parameters.map fun parameter =>
      (Ty.parameterName? parameter.binder.value, parameter.type.value))
    head.isVariadic
    ((head.result.map Spanned.value).getD .void)

/-- Whether the procedure yields a value. -/
def returnsValue (head : ProcedureHead) : Bool :=
  match head.result with
  | some result => !result.value.isVoid
  | none => false

end ProcedureHead

namespace Struct

/-- The type of the values of the struct. -/
def type (struct : Struct) : Ty :=
  .struct ((struct.binder.map Spanned.value).getD Ty.anonymous)
    (struct.fields.map fun field => (field.binder.value, field.type.value))

end Struct

namespace BindingHead

/-- The type that is written down, or that of no value. -/
def declaredType (head : BindingHead) : Ty := (head.type.map Spanned.value).getD .void

end BindingHead

end Cadence
