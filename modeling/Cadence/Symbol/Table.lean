import Cadence.Source.Span
import Cadence.Symbol.Fault

/-!
# Symbol tables

Symbols stand for declarations and for scopes. They form a tree: a scope owns the symbols that are
declared in it, in the order of their declaration. The first symbol is the global scope. The body
of a procedure or a struct is the scope that directly follows its symbol among the siblings.
-/
namespace Cadence

open Source (Span)

/-- What a symbol stands for. -/
structure SymbolKind where
  isGlobal : Bool := false
  isLocal : Bool := false
  isScope : Bool := false
  isStruct : Bool := false
  isProcedure : Bool := false
  deriving DecidableEq, Repr

namespace SymbolKind

/-- The kind of a plain binding. -/
def binding : SymbolKind := {}

def scope : SymbolKind := { isScope := true }

def struct : SymbolKind := { isStruct := true }

def procedure : SymbolKind := { isProcedure := true }

/-- Whatever either of two kinds says. -/
def union (left right : SymbolKind) : SymbolKind :=
  { isGlobal := left.isGlobal || right.isGlobal
    isLocal := left.isLocal || right.isLocal
    isScope := left.isScope || right.isScope
    isStruct := left.isStruct || right.isStruct
    isProcedure := left.isProcedure || right.isProcedure }

/-- The names of all that a kind says. -/
def names (kind : SymbolKind) : List String :=
  [ (kind.isGlobal, "global"), (kind.isLocal, "local"), (kind.isScope, "scope"),
    (kind.isStruct, "struct"), (kind.isProcedure, "procedure") ].filterMap
      fun (holds, name) => if holds then some name else none

def display (kind : SymbolKind) : String := ", ".intercalate kind.names

end SymbolKind

structure Symbol where
  /-- The name. It is empty for scopes. -/
  name : String
  kind : SymbolKind
  /-- The type, absent for scopes and as long as it is not known. -/
  type : Option Ty
  /-- The place of the declaration. -/
  span : Span
  /-- The scope that the symbol belongs to. -/
  parent : Option SymbolIndex
  /-- The symbols that belong to a scope, in the order of their declaration. -/
  children : List SymbolIndex
  deriving BEq, Repr

/-- Symbols in the order in which they were added. -/
structure SymbolTable where
  symbols : Array Symbol
  deriving BEq, Repr

namespace SymbolTable

/-- The global scope. -/
def root : SymbolIndex := ⟨0⟩

/-- A table with nothing but the global scope. -/
def empty : SymbolTable :=
  ⟨#[{ name := "", kind := .scope, type := none, span := .unknown, parent := none,
       children := [] }]⟩

def size (table : SymbolTable) : Nat := table.symbols.size

def symbol? (table : SymbolTable) (index : SymbolIndex) : Option Symbol :=
  table.symbols[index.value]?

/-- The symbols that belong to a scope. -/
def children (table : SymbolTable) (scope : SymbolIndex) : List SymbolIndex :=
  ((table.symbol? scope).map Symbol.children).getD []

/-- The global symbols and scopes. -/
def globals (table : SymbolTable) : List SymbolIndex := table.children root

/-- Whether nothing was declared. -/
def isEmpty (table : SymbolTable) : Bool := table.globals.isEmpty

def isScope (table : SymbolTable) (index : SymbolIndex) : Bool :=
  ((table.symbol? index).map fun symbol => symbol.kind.isScope).getD false

def isStruct (table : SymbolTable) (index : SymbolIndex) : Bool :=
  ((table.symbol? index).map fun symbol => symbol.kind.isStruct).getD false

/-- The name that a symbol can be referred to by. A scope has none. -/
def name? (table : SymbolTable) (index : SymbolIndex) : Option String := do
  let symbol ← table.symbol? index
  if symbol.kind.isScope then none else some symbol.name

def type? (table : SymbolTable) (index : SymbolIndex) : Option Ty := do
  (← table.symbol? index).type

/-- The first global declaration of a name. -/
def lookupGlobal? (table : SymbolTable) (name : String) : Option SymbolIndex :=
  table.globals.find? fun index => table.name? index = some name

/-- What directly follows an item of a list. -/
def next? {α : Type} [DecidableEq α] (item : α) : List α → Option α
  | [] => none
  | first :: rest => if first = item then rest.head? else next? item rest

/-- The scope of the body of a procedure or a struct. -/
def bodyScope? (table : SymbolTable) (owner : SymbolIndex) : Option SymbolIndex := do
  let parent ← (← table.symbol? owner).parent
  let following ← next? owner (table.children parent)
  if table.isScope following then some following else none

def modify (table : SymbolTable) (index : SymbolIndex) (change : Symbol → Symbol) : SymbolTable :=
  ⟨table.symbols.modify index.value change⟩

def setType (table : SymbolTable) (index : SymbolIndex) (type : Option Ty) : SymbolTable :=
  table.modify index fun symbol => { symbol with type }

/-- Add a symbol behind all others, as the last one of its scope. -/
def push (table : SymbolTable) (scope : SymbolIndex) (symbol : Symbol) : SymbolTable :=
  let grown : SymbolTable := ⟨table.symbols.push symbol⟩
  grown.modify scope fun owner => { owner with children := owner.children ++ [⟨table.size⟩] }

/-- The line of a symbol, without what belongs to it. -/
def line (index : SymbolIndex) (symbol : Symbol) : String :=
  index.display ++ (if symbol.kind.isScope then "" else " " ++ symbol.name) ++
    ((symbol.type.map fun type => ": " ++ type.display).getD "") ++
      " [" ++ symbol.kind.display ++ "]\n"

/-- A symbol and what belongs to it, each level four columns further in. No symbol lies deeper in
the tree than there are symbols, which `height` bounds. -/
def outline (table : SymbolTable) : (height depth : Nat) → SymbolIndex → String
  | 0, _, _ => ""
  | height + 1, depth, index =>
    match table.symbol? index with
    | none => ""
    | some symbol =>
      String.ofList (List.replicate (depth * 4) ' ') ++ line index symbol ++
        String.join (symbol.children.map (table.outline height (depth + 1)))

/-- All symbols as a tree, one line for each. -/
def display (table : SymbolTable) : String := table.outline table.size 0 root

end SymbolTable

end Cadence
