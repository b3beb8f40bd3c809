import Cadence.Resolution.Tree
import Cadence.Symbol.Registration

/-!
# Resolution of a unit

The files of a unit are resolved one after the other. A file is walked over again as long as this
makes the types of more references known: a binding whose type is not written down can be referred
to in front of its declaration. The errors of the last walk over a file are the ones that count.
-/
namespace Cadence

namespace Resolving

/-- Walk over a file from the global symbol where it starts, and count its references to symbols of
unknown type. -/
def walk (position : Nat) (nodes : List Node) : Resolving (List Node × Nat) := do
  modify fun walk => { walk with position, errors := [], deferred := 0 }
  let nodes ← Node.resolveAll nodes
  return (nodes, (← get).deferred)

/-- Walk over a file as long as each walk leaves fewer references to symbols of unknown type than
the one before. -/
def settle (position : Nat) (nodes : List Node) (deferred : Nat) : Resolving (List Node) :=
  if deferred = 0 then return nodes
  else do
    let (nodes, fewer) ← walk position nodes
    if fewer < deferred then settle position nodes fewer
    else return nodes
  termination_by deferred

/-- Resolve a file and take the errors. -/
def file (nodes : List Node) : Resolving (List Node × List ResolutionError) := do
  let position := (← get).position
  let (nodes, deferred) ← walk position nodes
  let nodes ← settle position nodes deferred
  return (nodes, (← get).errors)

/-- All scopes have to be left and all global symbols met in the end. -/
def finish : Resolving Unit := do
  let walk ← get
  if ¬ walk.inner.isEmpty then throw .scopeNotLeft
  else if walk.position = walk.table.globals.length then return ()
  else throw .globalsLeft

end Resolving

/-- Files whose names are resolved. -/
structure Resolved where
  files : List (List Node)
  table : SymbolTable
  errors : List ResolutionError
  deriving BEq, Repr

namespace Resolved

/-- Resolve the files of a unit in the order in which they were registered. -/
def ofRegistered (registered : Registered) : Except Fault Resolved := do
  let (files, walk) ← (do
    let files ← registered.files.mapM Resolving.file
    Resolving.finish
    return files : Resolving _).run (.start registered.table)
  return ⟨files.map Prod.fst, walk.table, files.flatMap Prod.snd⟩

def diagnostics (resolved : Resolved) : List Diagnostic :=
  resolved.errors.map ResolutionError.diagnostic

end Resolved

end Cadence
