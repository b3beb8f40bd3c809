import Cadence.Resolution.Unit
import Cadence.Session.Loading

/-!
# Sessions

A session checks the files of a unit. It loads them, and if nothing is wrong with them it registers
their declarations and resolves their names.
-/
namespace Cadence

open Source (Map Path)
open Text (inflected)

/-- What a session found out. -/
structure Checked where
  map : Map
  /-- What was said, in order. -/
  events : List Event
  /-- The unit as far as it was checked, unless something is wrong with it. -/
  unit : Option CheckedUnit
  deriving BEq, Repr

namespace Checked

def hasErrors (events : List Event) : Bool := events.any Event.isError

/-- The passes that took part, one per line. -/
def timing (passes : List Pass) : Event :=
  .write ("Execution times by pass:\n" ++
    String.join (passes.map fun pass => "  " ++ pass.title ++ "\n"))

/-- The passes that are run over the files that were loaded. -/
def loadingPasses (loading : Loading) : List Pass :=
  (if loading.map.files = [] then [] else [.lexing]) ++
    if loading.files.isEmpty then [] else [.parsing]

/-- Replace the trees of some files. -/
def withNodes (files : List ParsedFile) (nodes : List (List Node)) : List ParsedFile :=
  List.zipWith (fun file nodes => { file with nodes }) files nodes

/-- The symbols, if they are asked for. -/
def symbols (options : SessionOptions) (table : SymbolTable) : List Event :=
  if options.emitSymbols then [.write (table.display ++ "\n")] else []

/-- Finish a session in which some passes were run. -/
def finish (options : SessionOptions) (map : Map) (events : List Event) (passes : List Pass)
    (unit : Option CheckedUnit) : Checked :=
  ⟨map, events ++ if options.timing then [timing passes] else [], unit⟩

/-- Check the unit that consists of the files that were loaded. -/
def ofLoading (options : SessionOptions) (loading : Loading) : Except Fault Checked := do
  let passes := loadingPasses loading
  if hasErrors loading.events then
    return finish options loading.map loading.events passes none
  else if options.haltsAfter .parsing then
    return finish options loading.map loading.events passes (some ⟨loading.files, .empty⟩)
  else
    let count := loading.files.length
    let events := loading.events ++
      [.info ("annotating " ++ toString count ++ " " ++ inflected count "file" "files")]
    let registered := Registered.ofFiles (loading.files.map ParsedFile.nodes)
    if options.haltsAfter .registration then
      return finish options loading.map (events ++ symbols options registered.table)
        (passes ++ [.registration])
        (some ⟨withNodes loading.files registered.files, registered.table⟩)
    else
      let events := events ++
        [.info ("resolving " ++ toString registered.table.size ++ " symbols")]
      let resolved ← Resolved.ofRegistered registered
      let events := events ++ resolved.diagnostics.map .report ++ symbols options resolved.table
      let unit : CheckedUnit := ⟨withNodes loading.files resolved.files, resolved.table⟩
      return finish options loading.map events (passes ++ [.registration, .resolution])
        (if resolved.errors.isEmpty then some unit else none)

/-- What is loaded for some files: them and all that they demand. -/
def loaded (options : SessionOptions) (archive : Archive) (paths : List Path) : Loading :=
  Loading.start.load options archive (paths.map (⟨·, none⟩))

/-- Check the unit that consists of some files and of all that they demand. -/
def ofPaths (options : SessionOptions) (archive : Archive) (paths : List Path) :
    Except Fault Checked :=
  ofLoading options (loaded options archive paths)

end Checked

end Cadence
