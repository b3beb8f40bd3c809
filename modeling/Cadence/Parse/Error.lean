import Cadence.Diagnostic.Basic
import Cadence.Token.Basic

/-!
# What can be wrong with the order of tokens

Each cause of an error that is found while nodes are parsed, and how it is reported.
-/
namespace Cadence

open Source (Span)
open Text (listing quoted)

/-- What is expected at some place. -/
inductive Expected where
  | token (name : TokenName)
  | expression
  | type
  | declaration
  deriving DecidableEq, Repr

def Expected.display : Expected → String
  | token name => name.display
  | expression => "expression"
  | type => "type"
  | declaration => "declaration"

/-- A token that tells why another one is expected. -/
inductive Demand where
  | externalDeclaration
  | structDeclaration
  | loadDirective
  deriving DecidableEq, Repr

def Demand.label : Demand → String
  | externalDeclaration => "external declarations have to be procedures"
  | structDeclaration => "struct declaration"
  | loadDirective => "the path of the loaded file has to follow"

/-- The parts of a procedure behind its name. -/
inductive ProcedurePart where
  | type
  | body
  deriving DecidableEq, Repr

inductive ParseError where
  /-- A token other than the expected ones. -/
  | unexpected (expected : List Expected) (actual : Token) (demand : Option (Demand × Token))
  /-- A token that no node starts with. -/
  | noNode (actual : Token)
  | misplacedVarargs (marker : Span)
  /-- A procedure whose parameter list follows the keyword directly. -/
  | unnamedProcedure (keyword actual : Token)
  /-- A procedure with something else in place of its name. -/
  | invalidProcedureName (actual : Token)
  /-- A procedure with neither a name nor a parameter list. -/
  | noProcedure (keyword actual : Token)
  | incompleteProcedure (missing : ProcedurePart) (keyword actual : Token)
  | unnamedStruct (keyword actual : Token)
  /-- A comma in front of the first element of a list, or one too much in front of the next one.
  In the second case the closing delimiter is given. -/
  | misplacedComma (comma : Token) (closing : Option TokenName)
  | qualifiedPath (path : Span)
  | invalidTarget (target : Span) (sign : Token)
  | unclosed (opening ending : Token)
  /-- A text that is used as a character and does not consist of one. -/
  | notOneCharacter (content : String) (literal directive : Token)
  deriving DecidableEq, Repr

namespace ParseError

def code? : ParseError → Option ErrorCode
  | unexpected _ _ _ | noNode _ | misplacedVarargs _ => some .e010
  | unnamedProcedure _ _ | invalidProcedureName _ | noProcedure _ _ => some .e011
  | incompleteProcedure _ _ _ => some .e012
  | unnamedStruct _ _ => some .e013
  | misplacedComma _ _ => some .e014
  | qualifiedPath _ => some .e015
  | invalidTarget _ _ => some .e016
  | unclosed _ _ => some .e017
  | notOneCharacter _ _ _ => none

def message : ParseError → String
  | unexpected expected actual _ =>
    "found " ++ actual.name.display ++ " but expected " ++
      listing .or (expected.map Expected.display)
  | noNode actual => "failed to parse at token " ++ quoted actual.image
  | misplacedVarargs _ => "the variadic marker ‘...’ has to be the last parameter"
  | unnamedProcedure _ _ => "the procedure declaration is missing a name"
  | invalidProcedureName actual =>
    "invalid token " ++ quoted actual.image ++ " for a procedure name"
  | noProcedure _ _ => "failed to parse a procedure declaration, is ‘proc’ a typo?"
  | incompleteProcedure .type _ _ => "the procedure is missing a type"
  | incompleteProcedure .body _ _ => "the procedure is missing a body"
  | unnamedStruct _ _ => "the struct declaration is missing a name"
  | misplacedComma _ _ => "misplaced comma"
  | qualifiedPath _ => "qualified paths with more than one segment are not supported yet"
  | invalidTarget _ _ => "invalid assignment target"
  | unclosed opening _ => "unclosed delimiter " ++ opening.name.display
  | notOneCharacter content _ _ =>
    "the string literal " ++ quoted content ++ " does not consist of exactly one character"

/-- The highlights and notes that explain the error. -/
def explain (error : ParseError) (diagnostic : Diagnostic) : Diagnostic :=
  match error with
  | unexpected _ actual demand =>
    let pointed := diagnostic.pointAt actual.span "unexpected token"
    match demand with
    | some (reason, token) => pointed.seeAlso token.span reason.label
    | none => pointed
  | noNode actual => diagnostic.pointAt actual.span "expected a declaration or an expression"
  | misplacedVarargs marker => diagnostic.pointAt marker "misplaced variadic marker"
  | unnamedProcedure keyword actual =>
    (diagnostic.pointAt keyword.span "unnamed procedure").seeAlso actual.span
      "expected a name before the parameter list"
  | invalidProcedureName actual =>
    diagnostic.pointAt actual.span "expected an identifier or an operator"
  | noProcedure keyword actual =>
    (diagnostic.pointAt keyword.span "expected a procedure declaration to start here").seeAlso
      actual.span "found neither a name nor a parameter list"
  | incompleteProcedure .type keyword actual =>
    (diagnostic.pointAt keyword.span "incomplete procedure").seeAlso actual.span
      "expected a parameter list here"
  | incompleteProcedure .body keyword actual =>
    ((diagnostic.pointAt keyword.span "incomplete procedure").seeAlso actual.span
      "expected ‘=’ or ‘\x7b’ here").help
      "prefix the declaration with ‘extern’ to declare an external procedure"
  | unnamedStruct keyword actual =>
    (diagnostic.pointAt keyword.span "unnamed struct").seeAlso actual.span
      "expected a name before the fields"
  | misplacedComma comma closing =>
    (diagnostic.pointAt comma.span "unexpected comma").note <|
      match closing with
      | none => "the list does not contain any elements yet"
      | some delimiter =>
        "a trailing comma is only allowed right before " ++ delimiter.display
  | qualifiedPath path => diagnostic.pointAt path "unsupported path"
  | invalidTarget target sign =>
    ((diagnostic.pointAt target "cannot be assigned to").seeAlso sign.span "assignment").note
      "only bindings, fields and dereferenced pointers can be assigned to"
  | unclosed opening ending =>
    (diagnostic.pointAt opening.span "unclosed delimiter").seeAlso ending.span
      "end of input reached here"
  | notOneCharacter _ literal directive =>
    (diagnostic.pointAt literal.span "expected a single character").seeAlso directive.span
      "required by this directive"

def diagnostic (error : ParseError) : Diagnostic :=
  error.explain { severity := .error, code := error.code?, message := some error.message }

end ParseError

end Cadence
