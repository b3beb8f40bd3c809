import Cadence.Diagnostic.Basic
import Cadence.Syntax.Type
import Cadence.Text.Difference
import Cadence.Text.Distance
import Cadence.Text.Listing
import Cadence.Text.Width

/-!
# Errors of the resolution of names

A name that denotes nothing is reported with a name that is spelled similarly, if there is one.
-/
namespace Cadence

open Source (Span)
open Text (quoted)

/-- Whether a name may have been meant where another one is written: at most a third of its length
is different. The length counts bytes, and three for a shorter name. -/
def isLookalike (written candidate : String) : Bool :=
  Text.editDistance candidate.toList written.toList ≤ max written.utf8ByteSize 3 / 3

/-- A name that may have been meant, followed by the name that is written unless the former only
adds to the latter, or replaces its single character. -/
def suggestion (written candidate : String) : String :=
  let difference := Text.changeset written candidate ""
  let shown := difference.changes.map fun
    | .kept text | .added text => text
    | .removed _ => ""
  let isRemoval : Text.Change → Bool
    | .removed _ => true
    | .kept _ | .added _ => false
  let isObvious := !difference.changes.any isRemoval ||
    (Text.textWidth written.toList = 1 && difference.distance = 2)
  quoted (String.join shown) ++ if isObvious then "" else " (instead of " ++ quoted written ++ ")"

inductive ResolutionError where
  /-- A name denotes nothing. -/
  | undefinedName (name : Identifier) (lookalike : Option String)
  /-- A name stands for a type but denotes something else, declared at a place. -/
  | notAType (name : Identifier) (declaration : Span)
  /-- A field is asked of a value whose type has none. -/
  | noFields (field : Identifier) (target : Span) (type : Ty)
  /-- A field is asked of a struct that does not have it. -/
  | undefinedField (struct : String) (field : Identifier) (lookalike : Option String)
  deriving BEq, Repr

namespace ResolutionError

def diagnostic : ResolutionError → Diagnostic
  | undefinedName name lookalike =>
    let error := (Diagnostic.error .e020
      ("the binding " ++ quoted name.value ++ " is not defined in this scope")).pointAtUnlabeled
        name.span
    match lookalike with
    | some candidate =>
      error.help ("a binding with a similar name exists in scope: " ++
        suggestion name.value candidate)
    | none => error
  | notAType name declaration =>
    (((Diagnostic.error .e021 ("the binding " ++ quoted name.value ++ " is not a type")).pointAt
      name.span "used as a type here").seeAlso declaration "the binding is declared here").note
        "only structs can be named in type position"
  | noFields field target type =>
    ((Diagnostic.error .e022
      ("values of type " ++ quoted type.display ++ " do not have fields")).pointAt
        field.span "cannot access this field").seeAlso target ("has type " ++ quoted type.display)
  | undefinedField struct field lookalike =>
    let error := (Diagnostic.error .e023
      ("the struct " ++ quoted struct ++ " does not have a field named " ++
        quoted field.value)).pointAt field.span "undefined field"
    match lookalike with
    | some candidate =>
      error.help ("a field with a similar name exists: " ++ suggestion field.value candidate)
    | none => error

end ResolutionError

end Cadence
