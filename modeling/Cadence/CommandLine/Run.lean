import Cadence.CommandLine.Reading
import Cadence.Session.Check

/-!
# Running the program

The program answers its arguments by texts on its two output streams and an exit code.
-/
namespace Cadence.CommandLine

open Source (Path)
open Style (ColorChoice Stroke)
open Text (listing quoted)

/-- What the program answers. -/
structure Response where
  code : Nat
  output : String
  errors : String
  deriving DecidableEq, Repr

/-- The exit codes of the program. -/
def success : Nat := 0

/-- Something is wrong with the source code. -/
def failure : Nat := 1

/-- Something is wrong with the arguments. -/
def misuse : Nat := 2

/-- What the program can see of the world. -/
structure Surroundings where
  isFolder : Path → Bool
  archive : Archive

/-- The extension of source files. -/
def fileExtension : String := "cad"

/-- A folder is given in place of a source file. -/
def folderGiven (path : Path) : Diagnostic :=
  (Diagnostic.plainError ("the path " ++ quoted path.display ++ " does not refer to a file")).help
    "pass the source files inside of the folder instead"

/-- A file is given whose name does not look like that of a source file. -/
def oddExtension (path : Path) : Diagnostic :=
  .warning ("the file " ++ quoted path.display ++ " does not have the file extension " ++
    quoted fileExtension)

/-- What is to be said about some paths, and whether they can be checked. The first folder ends
it. -/
def inspect (isFolder : Path → Bool) : List Path → List Event × Bool
  | [] => ([], true)
  | path :: rest =>
    if isFolder path then ([.report (folderGiven path)], false)
    else
      let (events, sound) := inspect isFolder rest
      if path.hasExtension fileExtension then (events, sound)
      else (.report (oddExtension path) :: events, sound)

/-- A line about what the program does. -/
def status (label message : String) : List Stroke :=
  let margin := String.ofList (List.replicate (12 - label.length) ' ')
  Style.styled (.boldColor ⟨.green, false⟩) (margin ++ label ++ " ") ++ [.write (message ++ "\n")]

/-- Check some files. Without an answer the program itself is at fault. -/
def check (surroundings : Surroundings) (color : ColorChoice) (quiet verbose : Bool)
    (options : SessionOptions) (paths : List Path) : Option Response := do
  let colored := color.isColored
  let (events, sound) := inspect surroundings.isFolder paths
  let terminal := ({ verbose } : Terminal).record events
  if sound then
    let message := listing .and (paths.map Path.display)
    let output := if quiet then [] else Style.paint colored (status "Checking" message)
    let checked ← (Checked.ofPaths options surroundings.archive paths).toOption
    let errors ← (terminal.record checked.events).flush.render? (some checked.map) colored
    return ⟨if checked.unit.isSome then success else failure, String.ofList output, errors⟩
  else
    let errors ← terminal.flush.render? none colored
    return ⟨failure, "", errors⟩

/-- A name is given that no error code has. -/
def unknownCode (name : String) : Diagnostic :=
  (Diagnostic.plainError (quoted name ++ " is not a valid error code")).note
    ("the valid error codes are " ++ listing .and (ErrorCode.all.map ErrorCode.name))

/-- The line about an error code. -/
def explanation (code : ErrorCode) : List Stroke :=
  Style.styled .onlyBold code.name ++ [.write (": " ++ code.explanation ++ "\n")]

/-- Explain some error codes. -/
def explain (color : ColorChoice) (names : List String) : Option Response := do
  let colored := color.isColored
  let codes := names.filterMap ErrorCode.ofName?
  let unknown := names.filter fun name => (ErrorCode.ofName? name).isNone
  let output := codes.flatMap fun code => Style.paint colored (explanation code)
  let terminal := unknown.foldl (fun terminal name => terminal.report (unknownCode name))
    ({} : Terminal)
  let errors ← terminal.flush.render? none colored
  return ⟨if unknown = [] then success else failure, String.ofList output, errors⟩

/-- What is asked of a session. -/
def Given.sessionOptions (given : Given) : SessionOptions :=
  { emitTokens := given.isGiven .emitTokens
    emitTrees := given.isGiven .emitTrees
    emitSymbols := given.isGiven .emitSymbols
    timing := given.isGiven .timing
    haltAfter := given.haltAfter }

/-- The choice of color: the one behind the command takes precedence. -/
def Instructions.color (instructions : Instructions) : ColorChoice :=
  (instructions.inner.color <|> instructions.outer.color).getD .auto

def Instructions.quiet (instructions : Instructions) : Bool :=
  instructions.inner.isGiven .quiet || instructions.outer.isGiven .quiet

/-- Do what the arguments ask for. -/
def Instructions.run (surroundings : Surroundings) (instructions : Instructions) : Option Response :=
  let given := instructions.inner
  match instructions.command with
  | .check =>
    check surroundings instructions.color instructions.quiet (given.isGiven .verbose) given.sessionOptions
      (given.operands.map fun word => ⟨word⟩)
  | .explain => explain instructions.color (given.operands.filterMap Word.text?)
  | .program | .help => some ⟨success, help instructions.command, ""⟩

/-- The answer if there is nothing to do. -/
def Stop.response : Stop → Response
  | .help command => ⟨success, CommandLine.help command, ""⟩
  | .version => ⟨success, CommandLine.version, ""⟩
  | .nothingGiven => ⟨misuse, "", CommandLine.help .program⟩
  | .refused refusal => ⟨misuse, "", refusal.message⟩

/-- The answer to some arguments. Without one the program itself is at fault. -/
def respond (surroundings : Surroundings) (words : List Word) : Option Response :=
  match readArguments words with
  | .ok instructions => instructions.run surroundings
  | .error stop => some stop.response

end Cadence.CommandLine
