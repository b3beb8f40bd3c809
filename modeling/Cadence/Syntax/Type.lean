import Cadence.Source.Span
import Cadence.Token.Word

/-!
# Types

The types of values: builtin ones, pointers, procedures, and structs, which are mostly referred to
by name. A name records the symbol of the struct that it denotes once that is known.
-/
namespace Cadence

open Source (Span)

/-- A value at a place in the source code. -/
structure Spanned (α : Type) where
  value : α
  span : Span
  deriving BEq, DecidableEq, Repr

/-- A name at the place where it is written. -/
abbrev Identifier := Spanned String

/-- The position of a symbol in the symbol table. -/
structure SymbolIndex where
  value : Nat
  deriving DecidableEq, Repr

namespace SymbolIndex

def display (index : SymbolIndex) : String := "#" ++ toString index.value

end SymbolIndex

inductive Ty where
  | builtin (type : BuiltinType)
  | pointer (target : Ty)
  /-- A procedure with named or anonymous parameters. Further arguments of any type may follow
  those of a variadic one. -/
  | procedure (parameters : List (Option String × Ty)) (isVariadic : Bool) (result : Ty)
  | struct (name : String) (fields : List (String × Ty))
  /-- A type that is referred to by name. -/
  | named (path : Identifier) (symbol : Option SymbolIndex)
  deriving BEq, Repr

/-- A type as it is written somewhere. -/
abbrev Annotation := Spanned Ty

namespace Ty

/-- The type of what has no value. -/
def void : Ty := .builtin .void

def isVoid : Ty → Bool
  | .builtin .void => true
  | _ => false

/-- The name of an anonymous parameter, field or struct. -/
def anonymous : String := "_"

/-- The name that a parameter contributes to the type of its procedure. -/
def parameterName? (name : String) : Option String :=
  if name = anonymous then none else some name

mutual

/-- The type as it is written. -/
def display : Ty → String
  | .builtin type => type.name
  | .pointer target => "*" ++ target.display
  | .procedure parameters isVariadic result =>
    let listed := displayParameters parameters ++ if isVariadic then ["..."] else []
    "(" ++ ", ".intercalate listed ++ ")" ++
      if result.isVoid then "" else " -> " ++ result.display
  | .struct name _ => name
  | .named path _ => path.value

def displayParameters : List (Option String × Ty) → List String
  | [] => []
  | (name, type) :: rest =>
    ((name.map (· ++ ": ")).getD "" ++ type.display) :: displayParameters rest

end

end Ty

end Cadence
