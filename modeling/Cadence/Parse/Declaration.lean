import Cadence.Parse.Expression

/-!
# Parsing of declarations

Procedures, structs, bindings, and demands for further files.
-/
namespace Cadence

open Source (Span)

namespace Parser

/-- The name of a procedure. A missing or wrong one is reported and tolerated if the parameter list
follows. -/
def procedureName (keyword : Token) : Parser (Option Identifier) := do
  let current ← token
  match current.lexeme with
  | .identifier name =>
    advance
    return some ⟨name, current.span⟩
  | .operator sign =>
    advance
    return some ⟨sign.name, current.span⟩
  | .punctuation .openingRoundBracket =>
    report (.unnamedProcedure keyword current)
    return none
  | _ =>
    if (← nextToken).name = .punctuation .openingRoundBracket then
      report (.invalidProcedureName current)
      advance
      return none
    else fail (.noProcedure keyword current)

/-- The body of a procedure: an expression behind an equals sign, or a block. -/
def procedureBody (inner : Inner) (keyword : Token) : Parser Expr := do
  let current ← token
  match current.lexeme with
  | .punctuation .assign =>
    advance
    inner.expression
  | .punctuation .openingCurlyBracket => block inner.node
  | _ => fail (.incompleteProcedure .body keyword current)

/-- A procedure. If it is defined elsewhere, the keyword that says so has been taken. -/
def procedure (inner : Inner) (external : Option Token) : Parser Node := do
  let keyword ← consume (.keyword .proc)
  let start := (external.map Token.span).getD keyword.span
  let binder ← procedureName keyword
  let current ← token
  if current.name ≠ .punctuation .openingRoundBracket then
    fail (.incompleteProcedure .type keyword current)
  else
    let signature ← signature
    let head := signature.head binder external.isSome
    if external.isSome then return .procedure (start.through signature.span) head none
    else
      let body ← procedureBody inner keyword
      return .procedure (start.through body.span) head (some body)

/-- The name of a struct. A missing one is reported and tolerated if the fields follow. -/
def structName (keyword : Token) : Parser (Option Identifier) := do
  let current ← token
  match current.lexeme with
  | .identifier name =>
    advance
    return some ⟨name, current.span⟩
  | .punctuation .openingCurlyBracket =>
    report (.unnamedStruct keyword current)
    return none
  | _ => failExpecting [.token .identifier] (some (.structDeclaration, keyword))

/-- A comma or a semicolon, if there is one. -/
def separator : Parser Unit := do
  if ← consumeIf (.punctuation .comma) then return ()
  else
    let _ ← consumeIf (.punctuation .semicolon)
    return ()

/-- A field and the separator behind it, if there is one. -/
def structField : Parser Member := do
  let binder ← consumeIdentifier
  let _ ← consume (.punctuation .colon)
  let annotated ← type
  separator
  return { binder, type := annotated }

/-- The next field of a struct, or the end of the struct. -/
def fieldStep (opening : Token) (fields : List Member) :
    Parser (Step (List Member) (List Member × Token)) := do
  let current ← token
  match current.lexeme with
  | .punctuation .closingCurlyBracket =>
    advance
    return .done (fields, current)
  | .endOfInput => failUnclosed opening
  | _ =>
    let field ← structField
    return .more (fields ++ [field])

/-- A struct. -/
def struct : Parser Node := do
  let keyword ← consume (.keyword .struct)
  let binder ← structName keyword
  let opening ← consume (.punctuation .openingCurlyBracket)
  let (fields, closing) ← loop (fieldStep opening) []
  return .struct (keyword.span.through closing.span) { binder, fields }

/-- The initial value of a binding, or the mark for the lack of one. -/
def initialValue (inner : Inner) : Parser Expr := do
  let current ← token
  if current.name = .punctuation .uninitialized then
    advance
    return .ofForm current.span .uninitialized
  else inner.expression

/-- A binding. -/
def binding (inner : Inner) (kind : BindingKind) : Parser Node := do
  let keyword ← token
  advance
  let binder ← consumeIdentifier
  let annotated ← led (.punctuation .colon) type
  let value ← led (.punctuation .assign) (initialValue inner)
  let span := (keyword.span.through binder.span).throughOption (annotated.map Spanned.span)
  let span := span.throughOption (value.map Expr.span)
  return .binding span { kind, binder, type := annotated } value

/-- The demand for a further file. -/
def load : Parser Node := do
  let directive ← token
  advance
  let current ← token
  match current.lexeme with
  | .text path =>
    advance
    return .load (directive.span.through current.span) ⟨path, current.span⟩
  | _ => failExpecting [.token .text] (some (.loadDirective, directive))

end Parser

end Cadence
