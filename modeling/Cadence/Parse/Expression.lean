import Cadence.Parse.Annotation
import Cadence.Token.Number

/-!
# Parsing of expressions

Operators between operands are parsed by climbing their precedences: an operand is followed by
operators that bind at least as tightly as asked for, and each takes what binds more tightly than
itself to its right. An operator goes on with an expression only if it continues the line.

Every routine is given the parsers for the expressions and nodes within what it parses.
-/
namespace Cadence

open Source (Span)

/-- The value of digits in a radix, if there are any and all of them are valid. -/
def Radix.valueOf? (radix : Radix) (digits : List Char) : Option Nat :=
  if digits.isEmpty || !digits.all radix.isDigit then none
  else some (digits.foldl (fun value digit => value * radix.value + digitValue digit) 0)
where
  /-- The value of a digit. -/
  digitValue (digit : Char) : Nat :=
    if digit.isDigit then digit.toNat - '0'.toNat
    else if 'a' ≤ digit then digit.toNat - 'a'.toNat + 10
    else digit.toNat - 'A'.toNat + 10

/-- The parsers for what lies within an expression. -/
structure Inner where
  /-- An expression with all its operators. -/
  expression : Parser Expr
  /-- An operand with the operators in front of it and what follows it. -/
  operand : Parser Expr
  /-- A declaration or a statement. -/
  node : Parser Node

/-- The token as an operator between two operands, with its precedence. It has to continue the line. -/
def PlacedToken.binary? (placed : PlacedToken) : Option (Spanned Operator × Nat) :=
  match placed.token.lexeme with
  | .operator sign =>
    match sign.precedence? with
    | some precedence =>
      if placed.continuesLine then some (⟨sign, placed.token.span⟩, precedence) else none
    | none => none
  | _ => none

theorem PlacedToken.precedence_of_binary {placed : PlacedToken} {sign : Spanned Operator}
    {precedence : Nat} (found : placed.binary? = some (sign, precedence)) :
    sign.value.precedence? = some precedence := by
  rw [PlacedToken.binary?] at found
  split at found
  next =>
    split at found
    next known =>
      split at found
      · obtain ⟨rfl, rfl⟩ := Prod.mk.inj (Option.some.inj found)
        exact known
      · cases found
    next => cases found
  next => cases found

namespace Parser

/-- Whether an expression can start with the token. -/
def beginsExpression : Lexeme → Bool
  | .keyword word =>
    [.true_, .false_, .if_, .unless_, .while_, .until_, .new, .delete, .defer].contains word
  | .operator sign => sign.isUnary
  | .directive name => name = "char"
  | .identifier _ | .integer _ _ | .real _ | .text _ | .character _ => true
  | .punctuation mark => mark = .openingRoundBracket || mark = .openingCurlyBracket
  | .builtinType _ | .endOfInput => false

/-- The current token if it is an operator between two operands that continues the line. -/
def binaryOperator? : Parser (Option (Spanned Operator × Nat)) := do
  return (← placed).binary?

/-- The tightest precedence that an operand to the right can be asked for. -/
def tightest : Nat := 7

/-- What is parsed so far, and the next operator with what it takes to its right if it binds at least
as tightly as `least`. -/
def climbStep (climbed : Nat → Parser Expr) (least : Nat) (left : Expr) :
    Parser (Step Expr Expr) := do
  match ← binaryOperator? with
  | some (sign, precedence) =>
    if precedence < least then return .done left
    else
      advance
      let right ← climbed (precedence + 1)
      return .more (.ofForm (left.span.through right.span) (.binary left sign right))
  | none => return .done left

/-- Operands and the operators between them that bind at least as tightly as `least`. At most
`depth` operators nest to the right. -/
def climbWithin (operand : Parser Expr) : Nat → Nat → Parser Expr
  | 0, _ => operand
  | depth + 1, least => do
    let first ← operand
    loop (climbStep (climbWithin operand depth) least) first

/-- Operands and the operators between them. Each operand to the right is asked for a tighter
precedence than the one before, so at most as many nest as there are precedences. -/
def climb (operand : Parser Expr) : Parser Expr := climbWithin operand tightest 0

/-- What may follow an operand: a cast, arguments, or the name of a field. -/
def suffixStep (inner : Inner) (operand : Expr) : Parser (Step Expr Expr) := do
  let current ← token
  match current.lexeme with
  | .keyword .as_ =>
    advance
    let annotated ← type
    return .more
      (.typed (operand.span.through annotated.span) annotated.value (.cast operand annotated))
  | .punctuation .openingRoundBracket =>
    advance
    let (arguments, closing) ←
      commaSeparated current (.punctuation .closingRoundBracket) inner.expression
    return .more (.ofForm (operand.span.through closing.span) (.call operand arguments))
  | .punctuation .dot =>
    advance
    let field ← consumeIdentifier
    return .more (.ofForm (operand.span.through field.span) (.field operand field))
  | _ => return .done operand

/-- All that follows an operand. -/
def suffixes (inner : Inner) : Expr → Parser Expr := loop (suffixStep inner)

/-- A text that stands for its only character. -/
def characterDirective : Parser Expr := do
  let directive ← token
  advance
  let literal ← token
  match literal.lexeme with
  | .text content =>
    advance
    match content.toList with
    | [character] =>
      return .typed (directive.span.through literal.span) (.builtin .u32) (.character character)
    | _ => fail (.notOneCharacter content literal directive)
  | _ => failExpecting [.token .text]

/-- A node. If it cannot be parsed, at least one token is skipped. -/
def recovering (node : Parser Node) : Parser (Option Node) := do
  let before ← countAhead
  match ← attempt node with
  | some parsed => return some parsed
  | none =>
    if (← countAhead) = before then advance
    return none

/-- The next node of a block, a semicolon, or the end of the block. -/
def blockStep (node : Parser Node) (opening : Token) (nodes : List Node) :
    Parser (Step (List Node) (List Node × Token)) := do
  let current ← token
  match current.lexeme with
  | .punctuation .closingCurlyBracket =>
    advance
    return .done (nodes, current)
  | .punctuation .semicolon =>
    advance
    return .more nodes
  | .endOfInput => failUnclosed opening
  | _ =>
    let found ← recovering node
    return .more (nodes ++ found.toList)

/-- Nodes between curly brackets. Semicolons may separate them. -/
def block (node : Parser Node) : Parser Expr := do
  let opening ← consume (.punctuation .openingCurlyBracket)
  let (nodes, closing) ← loop (blockStep node opening) []
  return .ofForm (opening.span.through closing.span) (.block nodes)

/-- An expression in round brackets. Its span includes them. -/
def bracketed (inner : Inner) : Parser Expr := do
  let opening ← token
  advance
  let parsed ← inner.expression
  let current ← token
  if current.name = .endOfInput then failUnclosed opening
  else
    let closing ← consume (.punctuation .closingRoundBracket)
    return parsed.withSpan (opening.span.through closing.span)

/-- The condition and the branches of a conditional or a loop. -/
def branches (inner : Inner) (form : Expr → Expr → Option Expr → Form) : Parser Expr := do
  let keyword ← token
  advance
  let condition ← inner.expression
  let consequent ← inner.expression
  let otherwise ← led (.keyword .else_) inner.expression
  let span := (keyword.span.through consequent.span).throughOption (otherwise.map Expr.span)
  return .ofForm span (form condition consequent otherwise)

/-- An expression that is a single token. -/
def literal (type : Ty) (form : Form) : Parser Expr := do
  let current ← token
  advance
  return .typed current.span type form

/-- An expression without operators and without suffixes. -/
def primary (inner : Inner) : Parser Expr := do
  let current ← token
  match current.lexeme with
  | .keyword .true_ => literal (.builtin .bool) (.bool true)
  | .keyword .false_ => literal (.builtin .bool) (.bool false)
  | .integer digits radix =>
    literal (.builtin .int) (.integer ((radix.valueOf? digits.toList).getD 0) radix)
  | .real digits => literal (.builtin .real) (.real digits)
  | .text content => literal (.pointer (.builtin .s8)) (.text content)
  | .character character => literal (.builtin .u32) (.character character)
  | .directive name =>
    if name = "char" then characterDirective else failExpecting [.expression]
  | .identifier name =>
    advance
    return .ofForm current.span (.reference ⟨name, current.span⟩ none)
  | .punctuation .openingRoundBracket => bracketed inner
  | .punctuation .openingCurlyBracket => block inner.node
  | .keyword .if_ => branches inner (.conditional false)
  | .keyword .unless_ => branches inner (.conditional true)
  | .keyword .while_ => branches inner (.loop false)
  | .keyword .until_ => branches inner (.loop true)
  | .keyword .new =>
    advance
    let annotated ← type
    return .typed (current.span.through annotated.span) (.pointer annotated.value) (.new annotated)
  | .keyword .delete =>
    advance
    let operand ← inner.expression
    return .ofForm (current.span.through operand.span) (.delete operand)
  | .keyword .defer =>
    advance
    let node ← inner.node
    return .ofForm (current.span.through node.span) (.defer node)
  | .keyword _ | .punctuation _ | .operator _ | .builtinType _ | .endOfInput =>
    failExpecting [.expression]

/-- An operand with the operators in front of it and what follows it. -/
def operandOf (inner : Inner) : Parser Expr := do
  let current ← token
  match current.lexeme with
  | .operator sign =>
    if sign.isUnary then
      advance
      let operand ← inner.operand
      return .ofForm (current.span.through operand.span) (.unary ⟨sign, current.span⟩ operand)
    else suffixes inner (← primary inner)
  | _ => suffixes inner (← primary inner)

/-- An expression with all its operators. -/
def expressionOf (inner : Inner) : Parser Expr := climb (operandOf inner)

end Parser

end Cadence
