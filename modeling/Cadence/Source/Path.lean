import Cadence.Text.Utf8

/-!
# Paths

A path is a sequence of bytes in which slashes separate components. `normalize` gives every path
one lexical identity: it removes components that stay where they are and lets each step up cancel
the folder in front of it, without asking the file system.
-/
namespace Cadence.Source

/-- A path as it is written. -/
structure Path where
  bytes : List UInt8
  deriving DecidableEq, Repr, Inhabited

/-- What a path is made of. -/
inductive Component where
  /-- The slash that an absolute path starts with. -/
  | root
  /-- A dot at the start of a relative path. -/
  | current
  /-- Two dots, the folder above. -/
  | parent
  | name (bytes : List UInt8)
  deriving DecidableEq, Repr

/-- The byte between two components. -/
def Path.separator : UInt8 := 0x2f

/-- The byte of the components that name no file. -/
def Path.dot : UInt8 := 0x2e

/-- The bytes of a component. -/
def Component.bytes : Component → List UInt8
  | .root => [Path.separator]
  | .current => [Path.dot]
  | .parent => [Path.dot, Path.dot]
  | .name bytes => bytes

namespace Path

def ofString (text : String) : Path := ⟨Text.utf8Encode text.toList⟩

/-- The path as it is shown. -/
def display (path : Path) : String := String.ofList (Text.utf8Lossy path.bytes)

def isAbsolute (path : Path) : Bool := path.bytes.head? = some separator

/-- The stretches between the separators. -/
def segments : List UInt8 → List (List UInt8)
  | [] => [[]]
  | byte :: rest =>
    match segments rest with
    | [] => [[byte]]
    | segment :: others =>
      if byte = separator then [] :: segment :: others else (byte :: segment) :: others

/-- What a segment behind the first one stands for: nothing if it is empty or a dot. -/
def component? (segment : List UInt8) : Option Component :=
  if segment = [] ∨ segment = [dot] then none
  else if segment = [dot, dot] then some .parent
  else some (.name segment)

/-- A relative path may start with a dot, which counts as a component only there. -/
def components (path : Path) : List Component :=
  let segments := segments path.bytes
  let start : List Component :=
    if path.isAbsolute then [.root]
    else if segments.head? = some [dot] then [.current]
    else []
  start ++ segments.filterMap component?

/-- Go on from a folder: an absolute path replaces it, and otherwise a separator is put in between
unless there is one. -/
def join (folder path : Path) : Path :=
  if path.isAbsolute then path
  else if folder.bytes = [] ∨ folder.bytes.getLast? = some separator then
    ⟨folder.bytes ++ path.bytes⟩
  else ⟨folder.bytes ++ separator :: path.bytes⟩

/-- The path that is written with the given components. -/
def ofComponents (components : List Component) : Path :=
  components.foldl (fun path component => path.join ⟨component.bytes⟩) ⟨[]⟩

/-- Add a component to those of a normalized path, given in reverse. -/
def step : List Component → Component → List Component
  | before, .current => before
  | .name _ :: before, .parent => before
  | before, component => component :: before

/-- The components without those that stay in place and without each step up that follows a named
folder, together with that folder. -/
def reduce (components : List Component) : List Component :=
  (components.foldl step []).reverse

/-- The path with the reduced components. -/
def normalize (path : Path) : Path := ofComponents (reduce path.components)

/-- The path without its last component, unless that is the root or there is none. -/
def parent? (path : Path) : Option Path :=
  match path.components.getLast? with
  | none | some .root => none
  | some _ => some (ofComponents path.components.dropLast)

/-- The name of the file or folder that the path leads to. -/
def fileName? (path : Path) : Option (List UInt8) :=
  match path.components.getLast? with
  | some (.name bytes) => some bytes
  | _ => none

/-- What follows the last dot of the file name, unless that dot is the first byte. -/
def extension? (path : Path) : Option (List UInt8) := do
  let name ← path.fileName?
  let backward := name.reverse
  let extension := (backward.takeWhile (· ≠ dot)).reverse
  if extension.length + 1 < name.length then some extension else none

def hasExtension (path : Path) (extension : String) : Bool :=
  path.extension? = some (Text.utf8Encode extension.toList)

end Path

end Cadence.Source
