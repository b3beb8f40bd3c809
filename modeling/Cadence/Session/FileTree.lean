import Cadence.Session.Archive
import Cadence.Text.Utf8

/-!
# File trees

Folders and files below a working folder, of which paths are relative. Nothing is known about what
lies outside, except that there are folders.
-/
namespace Cadence

open Source (Component Path)

/-- The names of the folders that lead to a file or a folder, and its own, outermost first. -/
abbrev TreePath := List (List UInt8)

structure FileTree where
  folders : List TreePath
  files : List (TreePath × List UInt8)
  deriving DecidableEq, Repr

/-- What a path leads to. -/
inductive TreeEntry where
  | folder (path : TreePath)
  | file (content : List UInt8)
  /-- A folder that does not lie in the working folder. -/
  | outside
  deriving DecidableEq, Repr

namespace FileTree

def empty : FileTree := ⟨[], []⟩

/-- The names in a path below the working folder. -/
def names (path : Path) : TreePath :=
  path.components.filterMap fun
    | .name bytes => some bytes
    | .root | .current | .parent => none

/-- Add a folder and those around it. -/
def addFolder (tree : FileTree) (path : TreePath) : FileTree :=
  { tree with
    folders := tree.folders ++ (List.range path.length).map fun depth => path.take (depth + 1) }

/-- Add a file, in place of one of the same path, and the folders around it. -/
def addFile (tree : FileTree) (path : TreePath) (content : List UInt8) : FileTree :=
  let around := tree.addFolder path.dropLast
  { around with
    files := (around.files.filter fun (known, _) => known ≠ path) ++ [(path, content)] }

/-- What a name leads to in a folder. -/
def child (tree : FileTree) (path : TreePath) : Except ReadFailure TreeEntry :=
  match tree.files.lookup path with
  | some content => .ok (.file content)
  | none => if path ∈ tree.folders then .ok (.folder path) else .error .noSuchFile

/-- Follow a component of a path. -/
def step (tree : FileTree) : TreeEntry → Component → Except ReadFailure TreeEntry
  | .file _, _ => .error .notAFolder
  | _, .root => .ok .outside
  | entry, .current => .ok entry
  | .folder path, .name name => tree.child (path ++ [name])
  | .folder path, .parent => .ok (if path = [] then .outside else .folder path.dropLast)
  | .outside, .parent => .ok .outside
  | .outside, .name _ => .error .noSuchFile

/-- What a path leads to. -/
def find (tree : FileTree) (path : Path) : Except ReadFailure TreeEntry :=
  if path.bytes.contains 0 then .error .impossibleName
  else if path.bytes = [] then .error .noSuchFile
  else path.components.foldlM tree.step (.folder [])

def isFolder (tree : FileTree) (path : Path) : Bool :=
  match tree.find path with
  | .ok (.folder _) | .ok .outside => true
  | .ok (.file _) | .error _ => false

/-- The texts in the tree. -/
def archive (tree : FileTree) : Archive :=
  { texts := tree.files.filterMap fun (path, content) =>
      (Text.utf8Decode? content).map fun text => (Path.ofComponents (path.map .name), text)
    failure := fun path =>
      match tree.find path with
      | .error failure => failure
      | .ok (.file _) => .noText
      | .ok (.folder _) | .ok .outside => .folder }

end FileTree

end Cadence
