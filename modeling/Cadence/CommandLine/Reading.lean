import Cadence.CommandLine.Refusal
import Cadence.Text.Similarity
import Cadence.Text.Utf8

/-!
# Reading arguments

Arguments are read from left to right. The value of an option and an operand are only looked at
when the next argument was recognized, so what is wrong with a name comes before what is wrong with
the value in front of it. The arguments behind a command belong to it.
-/
namespace Cadence.CommandLine

open Text (similarNames utf8Decode? utf8Encode utf8Lossy)

/-- The bytes of an argument, which need not be text. -/
abbrev Word := List UInt8

namespace Word

def ofString (text : String) : Word := utf8Encode text.toList

def text? (word : Word) : Option String := (utf8Decode? word).map String.ofList

/-- The word as it is shown. -/
def shown (word : Word) : String := String.ofList (utf8Lossy word)

/-- What follows a beginning. -/
def after? (start : String) (word : Word) : Option Word :=
  let bytes := ofString start
  if bytes.isPrefixOf word then some (word.drop bytes.length) else none

/-- What is in front of the first equals sign, and what is behind it if there is one. -/
def splitAtEquals (word : Word) : Word × Option Word :=
  let equals : UInt8 := 0x3d
  match word.dropWhile (· ≠ equals) with
  | [] => (word, none)
  | _ :: rest => (word.takeWhile (· ≠ equals), some rest)

/-- The characters of the longest beginning that is text. -/
def letters (word : Word) : List Char :=
  ((Text.utf8Units word).takeWhile Option.isSome).filterMap id

/-- What is behind the longest beginning that is text. -/
def behindLetters (word : Word) : Word := word.drop (utf8Encode word.letters).length

end Word

/-- What was given to a command. -/
structure Given where
  /-- The arguments in the order in which they were first given. -/
  arguments : List Argument := []
  color : Option Style.ColorChoice := none
  haltAfter : Option Pass := none
  operands : List Word := []
  deriving DecidableEq, Repr

/-- An argument that was recognized but not taken. -/
inductive Pending where
  | nothing
  /-- An option whose value is still to come. -/
  | option (argument : Argument)
  /-- A value of an option or an operand. -/
  | value (argument : Argument) (word : Word)
  deriving DecidableEq, Repr

/-- Why reading ends before a task is known. -/
inductive Stop where
  /-- Help for a command is asked for. -/
  | help (command : Command)
  /-- The version is asked for. -/
  | version
  /-- Nothing is asked for. -/
  | nothingGiven
  | refused (refusal : Refusal)
  deriving DecidableEq, Repr

namespace Given

def isGiven (given : Given) (argument : Argument) : Bool := argument ∈ given.arguments

def add (given : Given) (argument : Argument) : Given :=
  if given.isGiven argument then given
  else { given with arguments := given.arguments ++ [argument] }

def remove (given : Given) (argument : Argument) : Given :=
  { given with arguments := given.arguments.filter (· ≠ argument) }

/-- The given arguments apart from operands. -/
def named (given : Given) : List Argument :=
  given.arguments.filter fun argument => !argument.isOperand

/-- Take the value of an option, whose text is read by `read`. -/
def takeOption {α : Type} (given : Given) (argument : Argument) (word : Word)
    (read : String → Option α) (store : Given → α → Given) (unknown : String → Cause) :
    Given × Option Cause :=
  if given.isGiven argument then (given.remove argument, some (.repeated argument))
  else
    let given := given.add argument
    match word.text? with
    | none => (given, some (.noText word.shown))
    | some text =>
      match read text with
      | some value => (store given value, none)
      | none => (given, some (unknown text))

/-- Take a value. What was given is also known if something is wrong with the value. -/
def take (given : Given) (argument : Argument) (word : Word) : Given × Option Cause :=
  match argument with
  | .color =>
    given.takeOption .color word Style.ColorChoice.ofName?
      (fun given color => { given with color := some color }) .unknownColor
  | .haltAfter =>
    given.takeOption .haltAfter word Pass.ofName?
      (fun given pass => { given with haltAfter := some pass }) .unknownPass
  | _ =>
    let given := given.add argument
    if argument = .paths ∧ word = [] then (given, some (.missingValue .paths))
    else if argument = .codes ∧ word.text?.isNone then (given, some .operandNoText)
    else ({ given with operands := given.operands ++ [word] }, none)

/-- Take what is pending. -/
def settle (given : Given) : Pending → Given × Option Cause
  | .nothing => (given, none)
  | .option argument => (given, some (.missingValue argument))
  | .value argument word => given.take argument word

end Given

namespace Cause

/-- Whether the usage is shown with the complaint about a value. -/
def showsUsage : Cause → Bool
  | repeated _ | operandNoText => true
  | _ => false

end Cause

/-- The refusal of a value. -/
def refuseValue (command : Command) (cause : Cause) : Stop :=
  .refused ⟨command, cause, if cause.showsUsage then some [] else none⟩

/-- Take what is pending. It is refused if something is wrong with it. -/
def settled (command : Command) (given : Given) (pending : Pending) : Except Stop Given :=
  match given.settle pending with
  | (given, none) => .ok given
  | (_, some cause) => .error (refuseValue command cause)

/-- Take a switch. -/
def flip (command : Command) (given : Given) (argument : Argument) : Except Stop Given :=
  match argument with
  | .help => .error (.help command)
  | .version => .error .version
  | _ =>
    if given.isGiven argument then .error (refuseValue command (.repeated argument))
    else .ok (given.add argument)

/-- The tip to put two dashes in front of an operand. -/
def operandTip (shown : String) : String :=
  "to pass " ++ Cause.inQuotes shown ++ " as a value, use " ++ Cause.inQuotes ("-- " ++ shown)

/-- The command that takes an argument of a similar name and comes first among the words ahead,
with the name. -/
def similarInCommand? (name : String) (ahead : List Word) : Option (Command × String) :=
  let found := Command.all.filterMap fun command => do
    let similar ← (similarNames name command.longs).getLast?
    let position ← ahead.idxOf? (Word.ofString command.name)
    return (position, command, similar)
  let least := found.foldl (fun best entry =>
    match best with
    | none => some entry
    | some (position, _) => if entry.1 < position then some entry else best) none
  least.map Prod.snd

/-- Refuse a name behind two dashes that no argument has. -/
def refuseLong (command : Command) (given : Given) (name : String) (ahead : List Word) : Stop :=
  let shown := "--" ++ name
  match (similarNames name command.longs).getLast? with
  | some similar =>
    let given := (command.long? similar).elim given given.add
    let tip := "a similar argument exists: " ++ Cause.inQuotes ("--" ++ similar)
    .refused ⟨command, .unexpected shown (some tip), some given.arguments⟩
  | none =>
    let elsewhere :=
      if command = .program then
        (similarInCommand? name ahead).map fun (other, similar) =>
          Cause.inQuotes (other.name ++ " --" ++ similar) ++ " exists"
      else none
    let tip := elsewhere <|> command.operand?.map fun _ => operandTip shown
    .refused ⟨command, .unexpected shown tip, some given.arguments⟩

/-- Take an argument whose name is behind two dashes. -/
def readLong (command : Command) (given : Given) (pending : Pending) (word : Word)
    (ahead : List Word) : Except Stop (Given × Pending) := do
  let (name, value) := word.splitAtEquals
  match name.text?.bind command.long? with
  | none => throw (refuseLong command (given.settle pending).1 name.shown ahead)
  | some argument =>
    if argument.isOption then
      let given ← settled command given pending
      match value with
      | some value => return (← settled command given (.value argument value), .nothing)
      | none => return (given, .option argument)
    else
      match value with
      | some value =>
        throw (.refused ⟨command, .needlessValue argument value.shown,
          some (given.named ++ [argument])⟩)
      | none => return (← flip command (← settled command given pending) argument, .nothing)

/-- Refuse a letter behind a dash that no argument has. -/
def refuseShort (command : Command) (shown : String) : Stop :=
  .refused ⟨command, .unexpected shown (command.operand?.map fun _ => operandTip shown), some []⟩

/-- Take the switches whose letters are behind a dash. -/
def readLetters (command : Command) (given : Given) (pending : Pending) :
    List Char → Except Stop (Given × Pending)
  | [] => return (given, pending)
  | letter :: rest => do
    match command.short? letter with
    | none => throw (refuseShort command ("-" ++ String.ofList [letter]))
    | some argument =>
      let given ← flip command (← settled command given pending) argument
      readLetters command given .nothing rest

/-- Take the switches behind a dash. -/
def readShort (command : Command) (given : Given) (pending : Pending) (word : Word) :
    Except Stop (Given × Pending) := do
  let result ← readLetters command given pending word.letters
  if word.behindLetters = [] then return result
  else throw (refuseShort command ("-" ++ (Word.shown word.behindLetters)))

/-- Refuse a word where a command is expected. -/
def refuseCommand (word : Word) (trailing : Bool) : Stop :=
  let shown := word.shown
  let cause :=
    if trailing ∧ (word.text?.bind Command.ofName?).isSome then Cause.needlessDashes shown
    else .unknownCommand shown (similarNames shown (Command.all.flatMap Command.names))
  .refused ⟨.program, cause, some []⟩

/-- Find the command to describe. -/
def readHelp (command : Command) : List Word → Stop
  | [] => .help command
  | word :: rest =>
    match if command = .program then word.text?.bind Command.ofName? else none with
    | some inner => readHelp inner rest
    | none => .refused ⟨command, .unknownCommand word.shown [], some []⟩

/-- What was given to the program, and to a command of it. -/
structure Instructions where
  outer : Given
  command : Command
  inner : Given
  deriving DecidableEq, Repr

/-- Check that nothing is missing. -/
def complete (command : Command) (given : Given) : Except Stop Given :=
  match command.operand? with
  | some operand =>
    if given.isGiven operand then .ok given
    else .error (.refused ⟨command, .missingOperand operand, some (given.named ++ [operand])⟩)
  | none => .ok given

/-- The kinds of words, as far as they do not depend on what is in front of them. -/
inductive WordKind where
  /-- Two dashes alone: the words behind them are operands. -/
  | dashes
  | long (rest : Word)
  | short (rest : Word)
  | plain
  deriving DecidableEq, Repr

def Word.kind (word : Word) : WordKind :=
  match word.after? "--" with
  | some [] => .dashes
  | some rest => .long rest
  | none =>
    match word.after? "-" with
    | some [] | none => .plain
    | some rest => .short rest

/-- Take a word that is not a name: the value that an option waits for, or an operand. -/
def readPlain (command : Command) (given : Given) (pending : Pending) (trailing : Bool)
    (word : Word) : Except Stop (Given × Pending) := do
  match trailing, pending with
  | false, .option argument => return (given, .value argument word)
  | _, _ =>
    match command.operand? with
    | some operand => return (← settled command given pending, .value operand word)
    | none => throw (refuseCommand word trailing)

/-- Whether a word may be a command: not behind two dashes, and not as the value of an option. -/
def admitsCommand (command : Command) (pending : Pending) (trailing : Bool) : Bool :=
  command = .program && !trailing &&
    match pending with
    | .option _ => false
    | _ => true

/-- Read the arguments of a command. For the program as a whole the command that is chosen comes
along with its arguments. -/
def readWords (command : Command) (given : Given) (pending : Pending) (trailing : Bool) :
    List Word → Except Stop (Given × Option (Command × Given))
  | [] => do
    let given ← settled command given pending
    if command = .program then
      throw (if given.arguments = [] then .nothingGiven
        else .refused ⟨.program, .missingCommand, some []⟩)
    else return (← complete command given, none)
  | word :: rest => do
    let chosen :=
      if admitsCommand command pending trailing then word.text?.bind Command.ofName? else none
    match chosen with
    | some .help => throw (readHelp .program rest)
    | some inner =>
      let (inside, _) ← readWords inner {} .nothing false rest
      return (← settled command given pending, some (inner, inside))
    | none =>
      if trailing then
        let (given, pending) ← readPlain command given pending true word
        readWords command given pending true rest
      else
        match word.kind with
        | .dashes => readWords command given pending true rest
        | .long name =>
          let (given, pending) ← readLong command given pending name rest
          readWords command given pending false rest
        | .short letters =>
          let (given, pending) ← readShort command given pending letters
          readWords command given pending false rest
        | .plain =>
          let (given, pending) ← readPlain command given pending false word
          readWords command given pending false rest

/-- Read the arguments of the program. -/
def readArguments (words : List Word) : Except Stop Instructions := do
  match ← readWords .program {} .nothing false words with
  | (outer, some (command, inner)) => return ⟨outer, command, inner⟩
  | (_, none) => throw .nothingGiven

end Cadence.CommandLine
