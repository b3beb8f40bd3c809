import Cadence.CommandLine.Run

/-!
# The program

All that is done outside of the pure part: the files that a session asks for are read, and the
answer is written.
-/
namespace Cadence.Program

open CommandLine (Instructions Response Surroundings Word readArguments respond)
open Source (Path)

/-- What the paths that were tried lead to. -/
structure Survey where
  texts : List (Path × List Char) := []
  failures : List (Path × ReadFailure) := []

namespace Survey

def knows (survey : Survey) (path : Path) : Bool :=
  survey.texts.any (fun (known, _) => known = path) ||
    survey.failures.any fun (known, _) => known = path

def archive (survey : Survey) : Archive :=
  ⟨survey.texts, fun path => (survey.failures.lookup path).getD .noSuchFile⟩

end Survey

/-- Why reading a file failed. Some systems report the number of an error as a negative one. -/
def readFailure : IO.Error → ReadFailure
  | .noFileOrDirectory .. => .noSuchFile
  | .inappropriateType _ code details =>
    let number := min code (0 - code)
    if number = 20 then .notAFolder
    else if number = 21 then .folder
    else .other details
  | error => .other (toString error)

/-- Try to read a file. -/
def readText (path : Path) : IO (Except ReadFailure (List Char)) := do
  if path.bytes.contains 0 then return .error .impossibleName
  else if path.bytes = [] then return .error .noSuchFile
  else
    try
      let content ← IO.FS.readBinFile path.display
      match Text.utf8Decode? content.toList with
      | some text => return .ok text
      | none => return .error .noText
    catch error => return .error (readFailure error)

def isFolder (path : Path) : IO Bool := do
  match ← readText path with
  | .error .folder => return true
  | _ => return false

/-- Read files until a session has all that it asks for. -/
partial def gather (options : SessionOptions) (requests : List FileRequest) (survey : Survey) :
    IO Survey := do
  let loading := Loading.start.load options survey.archive requests
  match loading.asked.filter fun path => !survey.knows path with
  | [] => return survey
  | missing =>
    let grown ← missing.foldlM (fun survey path => do
      match ← readText path with
      | .ok text => return { survey with texts := survey.texts ++ [(path, text)] }
      | .error failure =>
        return { survey with failures := survey.failures ++ [(path, failure)] }) survey
    gather options requests grown

/-- Look at all that the arguments lead to. -/
def surroundings (instructions : Instructions) : IO Surroundings := do
  if instructions.command = .check then
    let paths : List Path := instructions.inner.operands.map fun word => ⟨word⟩
    let folders ← paths.filterM isFolder
    let requests : List FileRequest := paths.map (⟨·, none⟩)
    let survey ← gather instructions.inner.sessionOptions requests {}
    return ⟨fun path => folders.contains path, survey.archive⟩
  else return ⟨fun _ => false, .ofTexts []⟩

end Cadence.Program

open Cadence Cadence.Program CommandLine in
def main (arguments : List String) : IO UInt32 := do
  let words := arguments.map Word.ofString
  let known ← match readArguments words with
    | .ok instructions => surroundings instructions
    | .error _ => pure ⟨fun _ => false, .ofTexts []⟩
  match respond known words with
  | some response =>
    (← IO.getStdout).putStr response.output
    (← IO.getStderr).putStr response.errors
    return UInt32.ofNat response.code
  | none =>
    (← IO.getStderr).putStr "internal compiler error\n"
    return 101
