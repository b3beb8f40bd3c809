import Cadence.Parse.Basic

/-!
# Parsing of types

A type is a builtin one, a pointer, the name of a struct, or a list of parameters with a result. A
list in brackets is always a list of parameters.
-/
namespace Cadence

open Source (Span)

/-- The parameters and the result of a procedure. -/
structure Signature where
  parameters : List Member
  isVariadic : Bool
  result : Option Annotation
  span : Span
  deriving BEq, Repr

namespace Signature

/-- What a procedure with the signature says in front of its body. -/
def head (signature : Signature) (binder : Option Identifier) (isExternal : Bool) : ProcedureHead :=
  { binder
    parameters := signature.parameters
    isVariadic := signature.isVariadic
    result := signature.result
    isExternal }

/-- The type that the signature denotes where it stands for a type itself. -/
def type (signature : Signature) : Ty :=
  .procedure
    (signature.parameters.map fun parameter =>
      (Ty.parameterName? parameter.binder.value, parameter.type.value))
    signature.isVariadic
    ((signature.result.map Spanned.value).getD .void)

/-- A procedure has the type that its signature denotes. -/
theorem type_head (signature : Signature) (binder : Option Identifier) (isExternal : Bool) :
    (signature.head binder isExternal).type = signature.type := rfl

end Signature

/-- An element of a list of parameters. -/
inductive Parameter where
  | member (member : Member)
  /-- The mark for further arguments. -/
  | varargs (span : Span)
  deriving BEq, Repr

/-- The name of a parameter that a token stands for, if it can be one. -/
def Lexeme.parameterName? : Lexeme → Option String
  | .identifier name => some name
  | .punctuation .wildcard => some Ty.anonymous
  | _ => none

namespace Parser

/-- The span of a path so far, and the next segment if there is one. -/
def pathStep (span : Span) : Parser (Step Span Span) := do
  if ← consumeIf (.punctuation .dot) then
    let segment ← consumeIdentifier
    return .more (span.through segment.span)
  else return .done span

/-- The name of a struct. Paths of more than one segment are not supported. -/
def qualifiedType : Parser Annotation := do
  let path ← consumeIdentifier
  if (← token).name = .punctuation .dot then
    let span ← loop pathStep path.span
    fail (.qualifiedPath span)
  else return ⟨.named path none, path.span⟩

/-- The name in front of the type of a parameter, if there is one. -/
def parameterName? : Parser (Option Identifier) := do
  let current ← token
  match current.lexeme.parameterName? with
  | none => return none
  | some name =>
    if (← nextToken).name = .punctuation .colon then
      advance
      advance
      return some ⟨name, current.span⟩
    else return none

/-- A parameter with or without a name, or the mark for further arguments. -/
def parameter (type : Parser Annotation) : Parser Parameter := do
  let current ← token
  if current.name = .punctuation .varargs then
    advance
    return .varargs current.span
  else
    let name? ← parameterName?
    let annotated ← type
    return .member
      { binder := name?.getD ⟨Ty.anonymous, annotated.span⟩
        type := annotated }

/-- The parameters of a list in which the mark for further arguments may only come last. -/
def membersOf : List Parameter → Parser (List Member × Bool)
  | [] => return ([], false)
  | [.varargs _] => return ([], true)
  | .varargs span :: _ => fail (.misplacedVarargs span)
  | .member member :: rest => do
    let (members, isVariadic) ← membersOf rest
    return (member :: members, isVariadic)

/-- The parameters and the result of a procedure. -/
def signatureOf (type : Parser Annotation) : Parser Signature := do
  let opening ← consume (.punctuation .openingRoundBracket)
  let (parameters, closing) ←
    commaSeparated opening (.punctuation .closingRoundBracket) (parameter type)
  let (parameters, isVariadic) ← membersOf parameters
  let result ← led (.punctuation .thinArrowRight) type
  let span := (opening.span.through closing.span).throughOption (result.map Spanned.span)
  return { parameters, isVariadic, result, span }

/-- A type, given how to parse the types within it. -/
def typeOf (inner : Parser Annotation) : Parser Annotation := do
  let current ← token
  match current.lexeme with
  | .operator .asterisk =>
    advance
    let target ← inner
    return ⟨.pointer target.value, current.span.through target.span⟩
  | .builtinType builtin =>
    advance
    return ⟨.builtin builtin, current.span⟩
  | .identifier _ => qualifiedType
  | .punctuation .openingRoundBracket =>
    let signature ← signatureOf inner
    return ⟨signature.type, signature.span⟩
  | _ => failExpecting [.type]

/-- A type that nests at most as deeply as given. -/
def typeWithin : Nat → Parser Annotation
  | 0 => exhaust
  | depth + 1 => typeOf (typeWithin depth)

/-- A type. It takes a token before it nests, so it cannot nest more deeply than there are tokens.
-/
def type : Parser Annotation := do typeWithin ((← countAhead) + 1)

/-- The parameters and the result of a procedure. -/
def signature : Parser Signature := signatureOf type

end Parser

end Cadence
