import Cadence.Session.Pass
import Cadence.Style.Basic

/-!
# Commands and arguments

The commands of the program and the arguments that each of them takes: switches, options with a
value, and operands, of which there may be several.
-/
namespace Cadence.CommandLine

/-- The name of the program. -/
def programName : String := "cadence"

def programVersion : String := "0.0.0"

inductive Argument where
  | quiet
  | color
  | emitTokens
  | emitTrees
  | emitSymbols
  | timing
  | verbose
  | haltAfter
  | help
  | version
  /-- The source files to check. -/
  | paths
  /-- The error codes to explain. -/
  | codes
  /-- The commands to describe. -/
  | commands
  deriving DecidableEq, Repr

namespace Argument

/-- The name behind two dashes. -/
def long? : Argument → Option String
  | quiet => some "quiet"
  | color => some "color"
  | emitTokens => some "emit-tokens"
  | emitTrees => some "emit-ast"
  | emitSymbols => some "emit-symbols"
  | timing => some "timing"
  | verbose => some "verbose"
  | haltAfter => some "halt-after"
  | help => some "help"
  | version => some "version"
  | paths | codes | commands => none

/-- The letter behind a single dash. -/
def short? : Argument → Option Char
  | quiet => some 'q'
  | verbose => some 'v'
  | help => some 'h'
  | version => some 'V'
  | _ => none

/-- What the value of an option or an operand is called. -/
def valueName? : Argument → Option String
  | color => some "WHEN"
  | haltAfter => some "PASS"
  | paths => some "PATHS"
  | codes => some "CODES"
  | commands => some "COMMAND"
  | _ => none

/-- Whether the argument stands for itself and not behind a name. -/
def isOperand : Argument → Bool
  | paths | codes | commands => true
  | _ => false

/-- Whether the argument has a name and a value. -/
def isOption (argument : Argument) : Bool :=
  argument.valueName?.isSome && !argument.isOperand

/-- The values to choose from. -/
def choices : Argument → List String
  | color => Style.ColorChoice.all.map Style.ColorChoice.name
  | haltAfter => Pass.all.map Pass.name
  | _ => []

def about : Argument → String
  | quiet => "Suppress status output from being printed to stdout"
  | color => "Control when to use color"
  | emitTokens => "Print the tokens of each file"
  | emitTrees => "Print the syntax tree of each file"
  | emitSymbols => "Print the symbol table after the last pass that ran"
  | timing => "Print the time spent in each pass"
  | verbose => "Print progress information"
  | haltAfter => "Halt after the given pass"
  | help => "Print help"
  | version => "Print version"
  | paths => "The paths to the source files"
  | codes => "The error codes that need explanation"
  | commands => "Print help for the subcommand(s)"

/-- The argument as it is written: operands can be repeated, and those in square brackets can be
left out. -/
def display (argument : Argument) : String :=
  match argument with
  | .commands => "[COMMAND]..."
  | _ =>
    match argument.long?, argument.valueName? with
    | some long, some value => "--" ++ long ++ " <" ++ value ++ ">"
    | some long, none => "--" ++ long
    | none, some value => "<" ++ value ++ ">..."
    | none, none => ""

end Argument

inductive Command where
  /-- The program itself, before a command is chosen. -/
  | program
  | check
  | explain
  | help
  deriving DecidableEq, Repr

namespace Command

/-- The commands to choose from. -/
def all : List Command := [check, explain, help]

def name : Command → String
  | program => programName
  | check => "check"
  | explain => "explain"
  | help => "help"

/-- Further names. -/
def aliases : Command → List String
  | check => ["c"]
  | program | explain | help => []

def names (command : Command) : List String := command.name :: command.aliases

def ofName? (name : String) : Option Command := all.find? fun command => name ∈ command.names

/-- What is typed to run the command. -/
def invocation : Command → String
  | program => programName
  | command => programName ++ " " ++ command.name

def about : Command → String
  | program => "The front end of the Cadence programming language"
  | check => "Check the given source files and the files they load for errors"
  | explain => "Explain the given error codes"
  | help => "Print this message or the help of the given subcommand(s)"

/-- The arguments of a command, its own ones first. -/
def arguments : Command → List Argument
  | program => [.quiet, .color, .help, .version]
  | check =>
    [.paths, .emitTokens, .emitTrees, .emitSymbols, .timing, .verbose, .haltAfter, .quiet, .color,
      .help]
  | explain => [.codes, .quiet, .color, .help]
  | help => [.commands]

/-- The named arguments of a command in the order in which they are described. -/
def described : Command → List Argument
  | program => [.quiet, .color, .help, .version]
  | check =>
    [.emitTokens, .quiet, .color, .emitTrees, .emitSymbols, .timing, .verbose, .haltAfter, .help]
  | explain => [.quiet, .color, .help]
  | help => []

/-- The operands of a command. -/
def operand? (command : Command) : Option Argument :=
  command.arguments.find? Argument.isOperand

/-- The argument of a name behind two dashes. -/
def long? (command : Command) (name : String) : Option Argument :=
  command.arguments.find? fun argument => argument.long? = some name

/-- The argument of a letter behind a dash. -/
def short? (command : Command) (letter : Char) : Option Argument :=
  command.arguments.find? fun argument => argument.short? = some letter

/-- The names behind two dashes. -/
def longs (command : Command) : List String := command.arguments.filterMap Argument.long?

end Command

end Cadence.CommandLine
