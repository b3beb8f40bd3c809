import Cadence.Syntax.Tree

/-!
# Syntax trees as text

A node is written as a title with its span, followed by one line per field. What belongs to a field
is indented below it.
-/
namespace Cadence

open Text (quotedCharacter quotedText)

namespace Outline

/-- Spaces at the start of a line. -/
def margin (indent : Nat) : String := String.ofList (List.replicate indent ' ')

/-- By how much a field is indented below its node. -/
def indentation : Nat := 4

/-- A line for a field whose text starts on that line. -/
def field (indent : Nat) (name text : String) : String :=
  "\n" ++ margin indent ++ name ++ ": " ++ text

/-- The lines for a field that holds a list. -/
def listField (indent : Nat) (name : String) (items : List String) : String :=
  if items = [] then field indent name "[]"
  else
    "\n" ++ margin indent ++ name ++ ":" ++
      String.join (items.map fun item => "\n" ++ margin (indent + indentation) ++ item)

def option {α : Type} (render : α → String) (value : Option α) : String :=
  (value.map render).getD "none"

def spanned {α : Type} (render : α → String) (value : Spanned α) : String :=
  render value.value ++ " " ++ value.span.text

def identifier : Identifier → String := spanned id

def annotated : Annotation → String := spanned Ty.display

def operator : Spanned Operator → String := spanned Operator.name

def symbol : Option SymbolIndex → String := option SymbolIndex.display

/-- A binding of any kind. -/
def binding (indent : Nat) (kind : String) (binder : Identifier) (type : Option Annotation)
    (initializer : String) (bound : Option SymbolIndex) : String :=
  "Binding " ++ binder.span.text ++ field indent "kind" kind ++
    field indent "binder" (identifier binder) ++ field indent "type" (option annotated type) ++
    field indent "initializer" initializer ++ field indent "symbol" (symbol bound)

/-- A parameter or a field. -/
def member (indent : Nat) (kind : String) (member : Member) : String :=
  binding indent kind member.binder (some member.type) "none" member.symbol

end Outline

def BindingKind.name : BindingKind → String
  | let_ => "let"
  | var => "var"

namespace Form

/-- What an expression of the form is called. -/
def title : Form → String
  | bool _ => "Bool"
  | integer _ _ => "Integer"
  | real _ => "Real"
  | text _ => "Text"
  | character _ => "Character"
  | reference _ _ => "Identifier"
  | field _ _ => "FieldIndex"
  | call _ _ => "Invocation"
  | binary _ _ _ => "Infix"
  | unary _ _ => "Prefix"
  | cast _ _ => "Cast"
  | block _ => "Block"
  | conditional isNegated _ _ _ => if isNegated then "Unless" else "If"
  | loop isNegated _ _ _ => if isNegated then "Until" else "While"
  | new _ => "New"
  | delete _ => "Delete"
  | defer _ => "Defer"
  | uninitialized => "Uninitialized"

end Form

/-- What is known about an expression, behind its title. -/
def ExprInfo.display (info : ExprInfo) : String :=
  let flags := (if info.required then ["required"] else []) ++ if info.tail then ["tail"] else []
  info.span.text ++ ((info.type.map fun type => " : " ++ type.display).getD "") ++
    if flags = [] then "" else " [" ++ ", ".intercalate flags ++ "]"

open Outline in
mutual

/-- The text of a node whose fields are indented by `indent`. -/
def Node.outline (indent : Nat) : Node → String
  | .procedure span head body =>
    "Procedure " ++ span.text ++ field indent "binder" (option identifier head.binder) ++
      listField indent "parameters"
        (head.parameters.map (member (indent + 2 * indentation) "parameter")) ++
      field indent "is-variadic" (toString head.isVariadic) ++
      field indent "result" (option annotated head.result) ++
      field indent "body" (Expr.outlineOption (indent + indentation) body) ++
      field indent "is-extern" (toString head.isExternal) ++
      field indent "symbol" (symbol head.symbol)
  | .struct span declared =>
    "Struct " ++ span.text ++ field indent "binder" (option identifier declared.binder) ++
      listField indent "fields"
        (declared.fields.map (member (indent + 2 * indentation) "field")) ++
      field indent "symbol" (symbol declared.symbol)
  | .binding _ head initializer =>
    binding indent head.kind.name head.binder head.type
      (Expr.outlineOption (indent + indentation) initializer) head.symbol
  | .load span path => "Load " ++ span.text ++ field indent "path" (identifier path)
  | .expression inner => inner.outline indent
  | .assignment span target sign value =>
    "Assignment " ++ span.text ++ field indent "target" (target.outline (indent + indentation)) ++
      field indent "operator" (option operator sign) ++
      field indent "value" (value.outline (indent + indentation))

/-- The text of an expression whose fields are indented by `indent`. -/
def Expr.outline (indent : Nat) : Expr → String
  | .mk info form => form.title ++ " " ++ info.display ++ form.outlineFields indent

/-- The fields of an expression. -/
def Form.outlineFields (indent : Nat) : Form → String
  | .bool value => field indent "value" (toString value)
  | .integer value radix =>
    field indent "value" (toString value) ++ field indent "radix" radix.name
  | .real literal => field indent "value" literal
  | .text content => field indent "value" (quotedText content)
  | .character value => field indent "value" (quotedCharacter value)
  | .reference binder bound =>
    field indent "binder" (identifier binder) ++ field indent "symbol" (symbol bound)
  | .field target name =>
    field indent "target" (target.outline (indent + indentation)) ++
      field indent "field" (identifier name)
  | .call callee arguments =>
    field indent "callee" (callee.outline (indent + indentation)) ++
      listField indent "arguments" (Expr.outlines (indent + 2 * indentation) arguments)
  | .binary left sign right =>
    field indent "left" (left.outline (indent + indentation)) ++
      field indent "operator" (operator sign) ++
      field indent "right" (right.outline (indent + indentation))
  | .unary sign operand =>
    field indent "operator" (operator sign) ++
      field indent "operand" (operand.outline (indent + indentation))
  | .cast operand type =>
    field indent "expression" (operand.outline (indent + indentation)) ++
      field indent "type" (annotated type)
  | .block nodes => listField indent "nodes" (Node.outlines (indent + 2 * indentation) nodes)
  | .conditional _ condition consequent alternative =>
    field indent "condition" (condition.outline (indent + indentation)) ++
      field indent "consequent" (consequent.outline (indent + indentation)) ++
      field indent "alternative" (Expr.outlineOption (indent + indentation) alternative)
  | .loop _ condition body alternative =>
    field indent "condition" (condition.outline (indent + indentation)) ++
      field indent "body" (body.outline (indent + indentation)) ++
      field indent "alternative" (Expr.outlineOption (indent + indentation) alternative)
  | .new type => field indent "type" (annotated type)
  | .delete operand => field indent "operand" (operand.outline (indent + indentation))
  | .defer node => field indent "node" (node.outline (indent + indentation))
  | .uninitialized => ""

def Expr.outlineOption (indent : Nat) : Option Expr → String
  | none => "none"
  | some inner => inner.outline indent

def Expr.outlines (indent : Nat) : List Expr → List String
  | [] => []
  | first :: rest => first.outline indent :: Expr.outlines indent rest

def Node.outlines (indent : Nat) : List Node → List String
  | [] => []
  | first :: rest => first.outline indent :: Node.outlines indent rest

end

/-- The text of a node that stands alone. -/
def Node.display (node : Node) : String := node.outline Outline.indentation

/-- The text of a file: that of each node and a line feed. -/
def Node.displayAll (nodes : List Node) : String :=
  String.join (nodes.map fun node => node.display ++ "\n")

end Cadence
