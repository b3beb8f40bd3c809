import Cadence.Source.Path

/-!
# Archives of source texts

An archive is where a session takes its source texts from. Normalized paths lead to the texts, and
every other path to a reason why there is none.
-/
namespace Cadence

open Source (Path)

/-- Why a text cannot be read. -/
inductive ReadFailure where
  /-- The text was not put into memory. -/
  | notInMemory
  | noSuchFile
  /-- The path leads through something that is not a folder. -/
  | notAFolder
  /-- The path leads to a folder. -/
  | folder
  /-- The file holds no text. -/
  | noText
  /-- No file can have such a name. -/
  | impossibleName
  /-- Some other reason. -/
  | other (reason : String)
  deriving DecidableEq, Repr

def ReadFailure.message : ReadFailure → String
  | notInMemory => "entity not found"
  | noSuchFile => "No such file or directory (os error 2)"
  | notAFolder => "Not a directory (os error 20)"
  | folder => "Is a directory (os error 21)"
  | noText => "stream did not contain valid UTF-8"
  | impossibleName => "file name contained an unexpected NUL byte"
  | other reason => reason

structure Archive where
  /-- Texts by their normalized paths. A later text replaces an earlier one of the same path. -/
  texts : List (Path × List Char)
  /-- Why any other path leads to no text. -/
  failure : Path → ReadFailure

namespace Archive

/-- Texts that are kept in memory. -/
def ofTexts (texts : List (Path × List Char)) : Archive :=
  ⟨texts.map fun (path, text) => (path.normalize, text), fun _ => .notInMemory⟩

/-- The text that a normalized path leads to. -/
def text? (archive : Archive) (path : Path) : Option (List Char) :=
  (archive.texts.reverse.find? fun (known, _) => known = path).map Prod.snd

/-- The text that a normalized path leads to, or the reason why there is none. -/
def read (archive : Archive) (path : Path) : Except ReadFailure (List Char) :=
  match archive.text? path with
  | some text => .ok text
  | none => .error (archive.failure path)

/-- The number of texts that some paths do not lead to. -/
def unread (archive : Archive) (paths : List Path) : Nat :=
  (archive.texts.filter fun (known, _) => known ∉ paths).length

theorem unread_cons (archive : Archive) (path : Path) (paths : List Path) :
    archive.unread (path :: paths) =
      ((archive.texts.filter fun (other, _) => other ∉ paths).filter
        fun (other, _) => other ≠ path).length := by
  simp [unread, List.filter_filter]

theorem unread_cons_le (archive : Archive) (path : Path) (paths : List Path) :
    archive.unread (path :: paths) ≤ archive.unread paths := by
  rw [unread_cons]
  exact List.length_filter_le _ _

/-- A text that was not read yet is one less once its path is among the read ones. -/
theorem unread_cons_lt {archive : Archive} {path : Path} {paths : List Path} {text : List Char}
    (found : archive.text? path = some text) (fresh : path ∉ paths) :
    archive.unread (path :: paths) < archive.unread paths := by
  obtain ⟨⟨known, content⟩, chosen, _⟩ := Option.map_eq_some_iff.1 found
  have member : (known, content) ∈ archive.texts :=
    List.mem_reverse.1 (List.mem_of_find?_eq_some chosen)
  have same : known = path := by simpa using List.find?_some chosen
  subst same
  rw [unread_cons, unread]
  refine List.length_filter_lt_length_iff_exists.2 ⟨(known, content), ?_, by simp⟩
  simp [member, fresh]

end Archive

end Cadence
