import Cadence.Resolution.Basic
import Cadence.Syntax.Tree

/-!
# Names in types, and the fields of values

A type that is referred to by name has to be a struct. A value has fields if its type is a struct
or refers to one.
-/
namespace Cadence

open Resolving

/-- Find the struct that a type name denotes. The symbol that was known before stays if there is
none. -/
def Resolving.typeName (path : Identifier) (known : Option SymbolIndex) :
    Resolving (Option SymbolIndex) := do
  match ← reference path with
  | none => return known
  | some index =>
    let found ← symbol index
    if found.kind.isStruct then return some index
    else
      report (.notAType path found.span)
      return known

mutual

/-- Find the structs that the names in a type denote. -/
def Ty.resolve : Ty → Resolving Ty
  | .builtin type => return .builtin type
  | .struct name fields => return .struct name fields
  | .pointer target => return .pointer (← target.resolve)
  | .procedure parameters isVariadic result =>
    return .procedure (← Ty.resolveParameters parameters) isVariadic (← result.resolve)
  | .named path known => return .named path (← typeName path known)

def Ty.resolveParameters : List (Option String × Ty) → Resolving (List (Option String × Ty))
  | [] => return []
  | (name, type) :: rest => return (name, ← type.resolve) :: (← Ty.resolveParameters rest)

end

def Resolving.annotated (type : Annotation) : Resolving Annotation :=
  return { type with value := ← type.value.resolve }

/-- The type of a parameter or a field. -/
def Resolving.memberType (member : Member) : Resolving Member :=
  return { member with type := ← annotated member.type }

/-- Meet the symbol of a parameter or a field and record its type. -/
def Resolving.meetMember (member : Member) : Resolving Unit := do
  setType (← meet member.symbol) (some member.type.value)

/-- What is known about the fields of the values of a type. -/
inductive Layout where
  | struct (name : String) (fields : List (String × Ty))
  /-- The type has no fields. -/
  | notAStruct
  /-- It is not known which struct the type refers to. -/
  | unknown
  deriving BEq, Repr

/-- What is known about the fields if a name in a type denotes a symbol of some type. -/
def Layout.ofDeclared : Option Ty → Layout
  | some (.struct name fields) => .struct name fields
  | _ => .unknown

/-- The fields of the values of a type. A name that was not looked up yet comes out of a global
declaration. -/
def Resolving.layout : Ty → Resolving Layout
  | .struct name fields => return .struct name fields
  | .named path known => do
    match known <|> (← look).table.lookupGlobal? path.value with
    | none => return .unknown
    | some index => return .ofDeclared (← symbol index).type
  | .builtin _ | .pointer _ | .procedure _ _ _ => return .notAStruct

/-- The type of a field of a value. An unknown type of the value itself is no further error. -/
def Resolving.fieldType (target : Expr) (field : Identifier) : Resolving (Option Ty) := do
  match target.type with
  | none => return none
  | some type =>
    match ← layout type with
    | .unknown => return none
    | .notAStruct =>
      report (.noFields field target.span type)
      return none
    | .struct name fields =>
      match fields.find? fun (candidate, _) => candidate = field.value with
      | some (_, found) => return some found
      | none =>
        report (.undefinedField name field
          ((fields.map Prod.fst).find? (isLookalike field.value)))
        return none

end Cadence
