import Cadence.Syntax.Type

/-!
# Faults of the symbol table's users

The table of symbols is built in one traversal of the syntax trees and followed in lockstep by
another one. What breaks this agreement is a fault of the program and not an error in the source
code that it reads.
-/
namespace Cadence

inductive Fault where
  /-- A symbol is referred to that the table does not have. -/
  | noSuchSymbol (count : Nat) (index : SymbolIndex)
  | globalScopeClosed
  | scopeLeftOpen
  /-- A declaration was reached whose symbol is not the next one of the scope. -/
  | diverged (scope : SymbolIndex) (position : Nat) (expected found : Option SymbolIndex)
  /-- Not every symbol of a scope was met in its body. -/
  | scopeLeftEarly
  /-- Not every global symbol was met in the files. -/
  | globalsLeft
  /-- A scope is still open behind the last file. -/
  | scopeNotLeft
  /-- A lookup goes beyond the symbols of a scope or those of the table. -/
  | lookupBeyondTable
  deriving DecidableEq, Repr

namespace Fault

/-- A symbol that may be missing. -/
def symbol : Option SymbolIndex → String
  | none => "None"
  | some index => "Some(" ++ index.display ++ ")"

/-- What is said about a fault before the program is given up. -/
def message : Fault → String
  | noSuchSymbol count index =>
    "index out of bounds: the len is " ++ toString count ++ " but the index is " ++
      toString index.value
  | globalScopeClosed => "attempt to close the global scope"
  | scopeLeftOpen => "a scope was left open"
  | diverged scope position expected found =>
    "the resolver diverged from the annotator in scope " ++ scope.display ++ " at position " ++
      toString position ++ ": expected " ++ symbol expected ++ " but found " ++ symbol found
  | scopeLeftEarly => "a scope was left before all of its symbols were walked"
  | globalsLeft =>
    "assertion \x60left == right\x60 failed: not every global symbol was walked"
  | scopeNotLeft => "a scope was not left"
  | lookupBeyondTable => "range end index out of range for slice"

end Fault

end Cadence
