import Cadence.CommandLine.Help
import Cadence.Text.Listing

/-!
# Refused arguments

Why the arguments of the program make no sense, and what the user is told about it.
-/
namespace Cadence.CommandLine

open Text (quoted)

/-- What is wrong with the arguments. -/
inductive Cause where
  | unknownColor (value : String)
  | unknownPass (value : String)
  /-- A value is no text. -/
  | noText (shown : String)
  /-- An operand is no text. -/
  | operandNoText
  | missingValue (argument : Argument)
  | repeated (argument : Argument)
  | needlessValue (argument : Argument) (value : String)
  /-- Something looks like a named argument but is none. Possibly another one was meant, or one of
  a command, or an operand. -/
  | unexpected (shown : String) (tip : Option String)
  /-- A command follows two dashes. -/
  | needlessDashes (command : String)
  | missingOperand (argument : Argument)
  | missingCommand
  | unknownCommand (name : String) (similar : List String)
  deriving DecidableEq, Repr

namespace Cause

/-- A text between straight quotes. -/
def inQuotes (text : String) : String := "\x27" ++ text ++ "\x27"

/-- An enumeration below a message. -/
def choicesLine (title : String) (choices : List String) : String :=
  if choices = [] then "" else "\n  [" ++ title ++ ": " ++ ", ".intercalate choices ++ "]"

def message : Cause → String
  | unknownColor value => quoted value ++ " is not a valid color choice"
  | unknownPass value => quoted value ++ " is not a pass of the front end"
  | noText shown => quoted shown ++ " is not valid UTF-8"
  | operandNoText => "invalid UTF-8 was detected in one or more arguments"
  | missingValue argument =>
    "a value is required for " ++ inQuotes argument.display ++ " but none was supplied" ++
      choicesLine "possible values" argument.choices
  | repeated argument =>
    "the argument " ++ inQuotes argument.display ++ " cannot be used multiple times"
  | needlessValue argument value =>
    "unexpected value " ++ inQuotes value ++ " for " ++ inQuotes argument.display ++
      " found; no more were expected"
  | unexpected shown _ => "unexpected argument " ++ inQuotes shown ++ " found"
  | needlessDashes command => "unexpected argument " ++ inQuotes command ++ " found"
  | missingOperand argument =>
    "the following required arguments were not provided:\n  " ++ argument.display
  | missingCommand =>
    inQuotes programName ++ " requires a subcommand but one was not provided" ++
      choicesLine "subcommands" (Command.all.flatMap Command.names)
  | unknownCommand name _ => "unrecognized subcommand " ++ inQuotes name

/-- What may help. -/
def tip : Cause → Option String
  | unexpected _ tip => tip
  | needlessDashes command =>
    some ("subcommand " ++ inQuotes command ++ " exists; to use it, remove the " ++
      inQuotes "--" ++ " before it")
  | unknownCommand _ similar =>
    match similar with
    | [] => none
    | [name] => some ("a similar subcommand exists: " ++ inQuotes name)
    | names =>
      some ("some similar subcommands exist: " ++ ", ".intercalate (names.map inQuotes))
  | _ => none

/-- Whether the user is told where to find help. Values that a command checks itself are only
complained about. -/
def refersToHelp : Cause → Bool
  | unknownColor _ | unknownPass _ | noText _ => false
  | _ => true

end Cause

structure Refusal where
  /-- The command whose arguments are wrong. -/
  command : Command
  cause : Cause
  /-- The given arguments with which the usage is shown, if it is. -/
  given : Option (List Argument)
  deriving DecidableEq, Repr

/-- What the user is told. -/
def Refusal.message (refusal : Refusal) : String :=
  "error: " ++ refusal.cause.message ++
    ((refusal.cause.tip.map ("\n\n  tip: " ++ ·)).getD "") ++
    ((refusal.given.map fun given => "\n\nUsage: " ++ usage refusal.command given).getD "") ++
    if refusal.cause.refersToHelp ∧ .help ∈ refusal.command.described then
      "\n\nFor more information, try " ++ Cause.inQuotes "--help" ++ ".\n"
    else "\n"

end Cadence.CommandLine
