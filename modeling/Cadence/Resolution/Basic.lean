import Cadence.Resolution.Error
import Cadence.Symbol.Table

/-!
# Where a walk over the syntax trees is

The walk meets the declarations in the order of their symbols in the table. A cursor counts for an
open scope how many of its symbols were met, and only those can be referred to. Global declarations
can be referred to from everywhere.
-/
namespace Cadence

open Source (Span)

/-- A place between the symbols of a scope. -/
structure Cursor where
  scope : SymbolIndex
  /-- The number of symbols that were met. -/
  position : Nat
  deriving DecidableEq, Repr

structure Walk where
  table : SymbolTable
  /-- The number of global symbols that were met. -/
  position : Nat
  /-- The cursors of the open scopes apart from the global one, innermost first. -/
  inner : List Cursor
  /-- The errors in the order in which they were found. -/
  errors : List ResolutionError
  /-- The number of references to symbols whose type is not known yet. -/
  deferred : Nat
  deriving BEq, Repr

namespace Walk

/-- In front of the first file. -/
def start (table : SymbolTable) : Walk := ⟨table, 0, [], [], 0⟩

/-- The cursors of all open scopes, innermost first. -/
def cursors (walk : Walk) : List Cursor := walk.inner ++ [⟨SymbolTable.root, walk.position⟩]

/-- The symbols of a scope that were met, latest first. -/
def met (walk : Walk) (cursor : Cursor) : List SymbolIndex :=
  ((walk.table.children cursor.scope).take cursor.position).reverse

/-- The symbols that were met in the open scopes, innermost and latest first. -/
def visible (walk : Walk) : List SymbolIndex := walk.cursors.flatMap walk.met

/-- What a lookup looks at is there: every open scope with at least as many symbols as were met, and
all that belongs to it. -/
def IsInRange (walk : Walk) : Prop :=
  ∀ cursor ∈ walk.cursors, cursor.scope.value < walk.table.size ∧
    cursor.position ≤ (walk.table.children cursor.scope).length ∧
      ∀ child ∈ walk.table.children cursor.scope, child.value < walk.table.size

instance (walk : Walk) : Decidable walk.IsInRange := by
  unfold IsInRange
  infer_instance

/-- The symbol that a name denotes. -/
def lookup? (walk : Walk) (name : String) : Option SymbolIndex :=
  (walk.visible.find? fun index => walk.table.name? index = some name) <|>
    walk.table.lookupGlobal? name

/-- A name that may have been meant where one is written that denotes nothing. -/
def lookalike? (walk : Walk) (name : String) : Option String :=
  ((walk.visible ++ walk.table.globals).filterMap walk.table.name?).find? (isLookalike name)

end Walk

/-- A step of a walk. -/
abbrev Resolving := StateT Walk (Except Fault)

namespace Resolving

def report (error : ResolutionError) : Resolving Unit :=
  modify fun walk => { walk with errors := walk.errors ++ [error] }

/-- A reference to a symbol whose type is not known yet. -/
def defer : Resolving Unit := modify fun walk => { walk with deferred := walk.deferred + 1 }

/-- A symbol of the table. -/
def symbol (index : SymbolIndex) : Resolving Symbol := do
  let table := (← get).table
  match table.symbol? index with
  | some symbol => return symbol
  | none => throw (.noSuchSymbol table.size index)

/-- Record the type of a symbol. -/
def setType (index : SymbolIndex) (type : Option Ty) : Resolving Unit := do
  discard (symbol index)
  modify fun walk => { walk with table := walk.table.setType index type }

/-- Take a place behind the next symbol of the innermost scope, which has to be the expected
one. -/
def meet (expected : Option SymbolIndex) : Resolving SymbolIndex := do
  let walk ← get
  let cursor := walk.cursors.headD ⟨SymbolTable.root, walk.position⟩
  let found := (walk.table.children cursor.scope)[cursor.position]?
  match found with
  | some index =>
    if expected = some index then
      match walk.inner with
      | [] => set { walk with position := walk.position + 1 }
      | current :: outer =>
        set { walk with inner := { current with position := current.position + 1 } :: outer }
      return index
    else throw (.diverged cursor.scope cursor.position expected found)
  | none => throw (.diverged cursor.scope cursor.position expected found)

/-- Walk over the body of a procedure or a struct. It has to meet all symbols of its scope. -/
def withinBody {α : Type} (owner : SymbolIndex) (content : Resolving α) : Resolving α := do
  let scope ← meet ((← get).table.bodyScope? owner)
  modify fun walk => { walk with inner := ⟨scope, 0⟩ :: walk.inner }
  let result ← content
  let walk ← get
  match walk.inner with
  | cursor :: outer =>
    if cursor.position = (walk.table.children cursor.scope).length then
      set { walk with inner := outer }
      return result
    else throw .scopeLeftEarly
  | [] => throw .scopeLeftEarly

/-- Look at the symbols of the open scopes. -/
def look : Resolving Walk := do
  let walk ← get
  if walk.IsInRange then return walk else throw .lookupBeyondTable

/-- The symbol that a name denotes. It is an error if there is none. -/
def reference (name : Identifier) : Resolving (Option SymbolIndex) := do
  let walk ← look
  match walk.lookup? name.value with
  | some index => return some index
  | none =>
    report (.undefinedName name (walk.lookalike? name.value))
    return none

end Resolving

end Cadence
