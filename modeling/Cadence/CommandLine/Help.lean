import Cadence.CommandLine.Argument

/-!
# Help

How a command is used, and what it and its arguments are for.
-/
namespace Cadence.CommandLine

/-- How a command is used. If some arguments are given, those with a name are shown in place of a
hint at all that there are. -/
def usage (command : Command) (given : List Argument) : String :=
  let options :=
    if given = [] then (if command.described = [] then [] else ["[OPTIONS]"])
    else (given.filter fun argument => !argument.isOperand).eraseDups.map Argument.display
  let operands := command.operand?.toList.map Argument.display
  let further := if command = .program then ["<COMMAND>"] else []
  " ".intercalate (command.invocation :: options ++ operands ++ further)

/-- Texts in two columns, all but the last line ended by a line feed. -/
def columns (rows : List (String × String)) : String :=
  let width := (rows.map fun (first, _) => first.length).foldl max 0
  "\n".intercalate <| rows.map fun (first, second) =>
    let gap := String.ofList (List.replicate (width - first.length) ' ')
    "  " ++ first ++ gap ++ "  " ++ second

/-- A headed part of the help. An empty one is left out. -/
def part (title : String) (rows : List (String × String)) : String :=
  if rows = [] then "" else "\n" ++ title ++ ":\n" ++ columns rows ++ "\n"

/-- What can be chosen, in square brackets. -/
def choicesNote (argument : Argument) : String :=
  if argument.choices = [] then ""
  else " [possible values: " ++ ", ".intercalate argument.choices ++ "]"

def optionRow (argument : Argument) : String × String :=
  let letter := match argument.short? with
    | some letter => "-" ++ String.ofList [letter] ++ ", "
    | none => "    "
  (letter ++ argument.display, argument.about ++ choicesNote argument)

def commandRow (command : Command) : String × String :=
  let further := match command.aliases with
    | [] => ""
    | aliases => " [alias: " ++ ", ".intercalate aliases ++ "]"
  (command.name, command.about ++ further)

/-- The help for a command. -/
def help (command : Command) : String :=
  command.about ++ "\n\nUsage: " ++ usage command [] ++ "\n" ++
    part "Commands" (if command = .program then Command.all.map commandRow else []) ++
    part "Arguments" (command.operand?.toList.map fun operand =>
      (operand.display, operand.about)) ++
    part "Options" (command.described.map optionRow)

/-- The name and the version of the program. -/
def version : String := programName ++ " " ++ programVersion ++ "\n"

end Cadence.CommandLine
