import Cadence.Symbol.Table

/-!
# Building a symbol table

A builder knows which scopes are open, so that a new symbol goes into the innermost one. Symbols
in the global scope are global and all others local.
-/
namespace Cadence

open Source (Span)

/-- A table of symbols under construction. -/
structure SymbolBuilder where
  table : SymbolTable
  /-- The open scopes apart from the global one, innermost first. -/
  inner : List SymbolIndex
  deriving BEq, Repr

namespace SymbolBuilder

/-- Nothing is declared yet. -/
def start : SymbolBuilder := ⟨.empty, []⟩

/-- The innermost open scope. -/
def scope (builder : SymbolBuilder) : SymbolIndex := builder.inner.headD SymbolTable.root

def isInGlobalScope (builder : SymbolBuilder) : Bool := builder.inner.isEmpty

/-- The index of the symbol that is added next. -/
def nextIndex (builder : SymbolBuilder) : SymbolIndex := ⟨builder.table.size⟩

/-- What the place of a declaration contributes to its kind. -/
def locality (builder : SymbolBuilder) : SymbolKind :=
  if builder.isInGlobalScope then { isGlobal := true } else { isLocal := true }

/-- Add a symbol to the innermost scope. It is given `nextIndex`. -/
def add (builder : SymbolBuilder) (name : String) (kind : SymbolKind) (type : Option Ty)
    (span : Span) : SymbolBuilder :=
  { builder with
    table := builder.table.push builder.scope
      { name, kind := kind.union builder.locality, type, span, parent := some builder.scope,
        children := [] } }

/-- Add a scope to the innermost one and enter it. -/
def enter (builder : SymbolBuilder) (span : Span) : SymbolBuilder :=
  { builder.add "" .scope none span with inner := builder.nextIndex :: builder.inner }

/-- Go back to the scope around the innermost one. -/
def leave (builder : SymbolBuilder) : SymbolBuilder := { builder with inner := builder.inner.tail }

/-- Go back to the scope around the innermost one, which must not be the global one. -/
def leave? (builder : SymbolBuilder) : Except Fault SymbolBuilder :=
  if builder.isInGlobalScope then .error .globalScopeClosed else .ok builder.leave

/-- The finished table. All scopes have to be left. -/
def finish (builder : SymbolBuilder) : Except Fault SymbolTable :=
  if builder.isInGlobalScope then .ok builder.table else .error .scopeLeftOpen

end SymbolBuilder

end Cadence
