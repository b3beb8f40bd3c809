import Cadence.Parse.Declaration
import Cadence.Token.Scan

/-!
# Parsing of files

A file is a sequence of nodes. A node that cannot be parsed is reported and left out, and parsing
goes on behind it.
-/
namespace Cadence

open Source (File Span)

namespace Parser

/-- An assignment from its sign on. The operator, if any, is the one that the sign applies. -/
def assignment (inner : Inner) (target : Expr) (operator : Option Operator) : Parser Node := do
  let sign ← token
  advance
  let value ← inner.expression
  if target.isPlace then
    let operator := operator.map fun applied => ⟨applied, sign.span⟩
    return .assignment (target.span.through value.span) target operator value
  else fail (.invalidTarget target.span sign)

/-- An expression, or an assignment to the location that it denotes. -/
def statement (inner : Inner) : Parser Node := do
  let target ← expressionOf inner
  let current ← token
  match current.lexeme with
  | .punctuation .assign => assignment inner target none
  | .operator sign =>
    match sign.applied? with
    | some applied => assignment inner target (some applied)
    | none => return .expression target
  | _ => return .expression target

/-- A declaration or a statement. -/
def nodeOf (inner : Inner) : Parser Node := do
  let current ← token
  match current.lexeme with
  | .keyword .external =>
    advance
    if (← token).name = .keyword .proc then procedure inner (some current)
    else failExpecting [.token (.keyword .proc)] (some (.externalDeclaration, current))
  | .keyword .proc => procedure inner none
  | .keyword .struct => struct
  | .keyword .let_ => binding inner .let_
  | .keyword .var => binding inner .var
  | .endOfInput => failExpecting [.declaration, .expression]
  | lexeme =>
    if lexeme = .directive "load" then load
    else if beginsExpression lexeme then statement inner
    else fail (.noNode current)

/-- The parsers for parts that nest at most as deeply as given. -/
def innerWithin : Nat → Inner
  | 0 => ⟨exhaust, exhaust, exhaust⟩
  | depth + 1 =>
    let inner := innerWithin depth
    ⟨expressionOf inner, operandOf inner, nodeOf inner⟩

/-- A declaration or a statement. A token is taken before anything nests, so nothing can nest more
deeply than there are tokens. -/
def node : Parser Node := do nodeOf (innerWithin ((← countAhead) + 1))

/-- The next node of a file, a semicolon, or the end of the input. -/
def nodesStep (nodes : List Node) : Parser (Step (List Node) (List Node)) := do
  let current ← token
  match current.lexeme with
  | .endOfInput => return .done nodes
  | .punctuation .semicolon =>
    advance
    return .more nodes
  | _ =>
    let found ← recovering node
    return .more (nodes ++ found.toList)

/-- All nodes up to the end of the input. Semicolons may separate them. -/
def nodes : Parser (List Node) := loop nodesStep []

end Parser

/-- The text between two tokens of a file. -/
def gap? (file : File) (before after : Token) : Option (List Char) := do
  let gap ← file.toLocal? ⟨before.span.stop, after.span.start⟩
  file.slice? gap

/-- The tokens behind one of a file as a parser sees them. -/
def placeAfter (file : File) (before : Token) : List Token → List PlacedToken
  | [] => []
  | token :: rest =>
    ⟨token, !((gap? file before token).getD []).contains '\n'⟩ :: placeAfter file token rest

/-- The tokens of a file as a parser sees them. -/
def placeTokens (file : File) : List Token → List PlacedToken
  | [] => []
  | token :: rest => ⟨token, true⟩ :: placeAfter file token rest

/-- The token for the end of a file. -/
def File.ending (file : File) : Token := ⟨.endOfInput, .emptyAt file.span.stop, ""⟩

/-- The tokens of a file, ending with the end of the input whatever is missing in front of it. -/
def endTokens (file : File) (tokens : List Token) : List Token :=
  match tokens.getLast? with
  | some token => if token.lexeme = .endOfInput then tokens else tokens ++ [File.ending file]
  | none => [File.ending file]

/-- What parsing a file yields. -/
structure Parsed where
  nodes : List Node
  errors : List ParseError
  /-- Whether anything was wrong. -/
  tainted : Bool
  /-- Whether parsing was given up. -/
  exhausted : Bool
  deriving BEq, Repr

namespace Parsed

/-- The state in which the parsing of some tokens starts. -/
def start (file : File) (tokens : List Token) : ParseState :=
  let placed := placeTokens file (endTokens file tokens)
  .fresh (placed.getLastD ⟨File.ending file, true⟩) placed.dropLast

/-- Parse the tokens of a file. -/
def ofTokens (file : File) (tokens : List Token) : Parsed :=
  let (nodes, state) := Parser.nodes.run (start file tokens)
  { nodes := nodes.getD []
    errors := state.errors
    tainted := state.tainted
    exhausted := state.exhausted }

/-- What parsing the tokens of a source file yields. -/
def ofFile (file : File) : Parsed := ofTokens file (Lexed.ofFile file).tokens

def diagnostics (parsed : Parsed) : List Diagnostic := parsed.errors.map ParseError.diagnostic

end Parsed

end Cadence
