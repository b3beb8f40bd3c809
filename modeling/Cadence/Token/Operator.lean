/-!
# Operators

The operators of the language, how they are written, and how tightly they bind. An operator of a
class stands between two operands; the classes are listed from the loosest to the tightest.
-/
namespace Cadence

inductive Operator where
  | plus | minus | asterisk | slash | percent | backslash | ampersand | pipe | tilde | shiftLeft
  | shiftRight | equal | notEqual | greater | greaterEqual | less | lessEqual | lessGreater
  | lessGreaterEqual | notLessGreaterEqual | notLessGreater | notLessEqual | notLess
  | notGreaterEqual | notGreater | logicalAnd | logicalOr | logicalXor | bang | caret
  | plusAssign | minusAssign | asteriskAssign | slashAssign | percentAssign | backslashAssign
  | shiftLeftAssign | shiftRightAssign | ampersandAssign | pipeAssign | tildeAssign
  deriving DecidableEq, Repr

/-- The classes of operators between two operands. -/
inductive OperatorClass where
  | logical
  | relational
  | shift
  | bitwise
  | additive
  | multiplicative
  deriving DecidableEq, Repr

namespace OperatorClass

/-- How tightly the operators of the class bind. -/
def precedence : OperatorClass → Nat
  | logical => 1
  | relational => 2
  | shift => 3
  | bitwise => 4
  | additive => 5
  | multiplicative => 6

def title : OperatorClass → String
  | logical => "Logical"
  | relational => "Relational"
  | shift => "Shift"
  | bitwise => "Bitwise"
  | additive => "Additive"
  | multiplicative => "Multiplicative"

end OperatorClass

namespace Operator

def all : List Operator :=
  [plus, minus, asterisk, slash, percent, backslash, ampersand, pipe, tilde, shiftLeft,
    shiftRight, equal, notEqual, greater, greaterEqual, less, lessEqual, lessGreater,
    lessGreaterEqual, notLessGreaterEqual, notLessGreater, notLessEqual, notLess, notGreaterEqual,
    notGreater, logicalAnd, logicalOr, logicalXor, bang, caret, plusAssign, minusAssign,
    asteriskAssign, slashAssign, percentAssign, backslashAssign, shiftLeftAssign,
    shiftRightAssign, ampersandAssign, pipeAssign, tildeAssign]

/-- The operator as it is written. -/
def name : Operator → String
  | plus => "+"
  | minus => "-"
  | asterisk => "*"
  | slash => "/"
  | percent => "%"
  | backslash => "\\"
  | ampersand => "&"
  | pipe => "|"
  | tilde => "~"
  | shiftLeft => "<<"
  | shiftRight => ">>"
  | equal => "=="
  | notEqual => "!="
  | greater => ">"
  | greaterEqual => ">="
  | less => "<"
  | lessEqual => "<="
  | lessGreater => "<>"
  | lessGreaterEqual => "<>="
  | notLessGreaterEqual => "!<>="
  | notLessGreater => "!<>"
  | notLessEqual => "!<="
  | notLess => "!<"
  | notGreaterEqual => "!>="
  | notGreater => "!>"
  | logicalAnd => "&&"
  | logicalOr => "||"
  | logicalXor => "~~"
  | bang => "!"
  | caret => "^"
  | plusAssign => "+="
  | minusAssign => "-="
  | asteriskAssign => "*="
  | slashAssign => "/="
  | percentAssign => "%="
  | backslashAssign => "\\="
  | shiftLeftAssign => "<<="
  | shiftRightAssign => ">>="
  | ampersandAssign => "&="
  | pipeAssign => "|="
  | tildeAssign => "~="

/-- The operator as it is called. -/
def title : Operator → String
  | plus => "Plus"
  | minus => "Minus"
  | asterisk => "Asterisk"
  | slash => "Slash"
  | percent => "Percent"
  | backslash => "Backslash"
  | ampersand => "Ampersand"
  | pipe => "Pipe"
  | tilde => "Tilde"
  | shiftLeft => "ShiftLeft"
  | shiftRight => "ShiftRight"
  | equal => "Equal"
  | notEqual => "NotEqual"
  | greater => "Greater"
  | greaterEqual => "GreaterEqual"
  | less => "Less"
  | lessEqual => "LessEqual"
  | lessGreater => "LessGreater"
  | lessGreaterEqual => "LessGreaterEqual"
  | notLessGreaterEqual => "NotLessGreaterEqual"
  | notLessGreater => "NotLessGreater"
  | notLessEqual => "NotLessEqual"
  | notLess => "NotLess"
  | notGreaterEqual => "NotGreaterEqual"
  | notGreater => "NotGreater"
  | logicalAnd => "LogicalAnd"
  | logicalOr => "LogicalOr"
  | logicalXor => "LogicalXor"
  | bang => "Bang"
  | caret => "Caret"
  | plusAssign => "PlusAssign"
  | minusAssign => "MinusAssign"
  | asteriskAssign => "AsteriskAssign"
  | slashAssign => "SlashAssign"
  | percentAssign => "PercentAssign"
  | backslashAssign => "BackslashAssign"
  | shiftLeftAssign => "ShiftLeftAssign"
  | shiftRightAssign => "ShiftRightAssign"
  | ampersandAssign => "AmpersandAssign"
  | pipeAssign => "PipeAssign"
  | tildeAssign => "TildeAssign"

/-- The class of an operator that can stand between two operands. -/
def class? : Operator → Option OperatorClass
  | plus => some .additive
  | minus => some .additive
  | asterisk => some .multiplicative
  | slash => some .multiplicative
  | percent => some .multiplicative
  | backslash => some .multiplicative
  | ampersand => some .bitwise
  | pipe => some .bitwise
  | tilde => some .bitwise
  | shiftLeft => some .shift
  | shiftRight => some .shift
  | equal => some .relational
  | notEqual => some .relational
  | greater => some .relational
  | greaterEqual => some .relational
  | less => some .relational
  | lessEqual => some .relational
  | lessGreater => some .relational
  | lessGreaterEqual => some .relational
  | notLessGreaterEqual => some .relational
  | notLessGreater => some .relational
  | notLessEqual => some .relational
  | notLess => some .relational
  | notGreaterEqual => some .relational
  | notGreater => some .relational
  | logicalAnd => some .logical
  | logicalOr => some .logical
  | logicalXor => some .logical
  | _ => none

/-- How tightly the operator binds between two operands, if it can stand there. -/
def precedence? (operator : Operator) : Option Nat := operator.class?.map OperatorClass.precedence

/-- Whether the operator can stand in front of an operand. -/
def isUnary : Operator → Bool
  | minus | tilde | bang | asterisk | caret => true
  | _ => false

/-- The operator that a compound assignment applies. -/
def applied? : Operator → Option Operator
  | plusAssign => some plus
  | minusAssign => some minus
  | asteriskAssign => some asterisk
  | slashAssign => some slash
  | percentAssign => some percent
  | backslashAssign => some backslash
  | shiftLeftAssign => some shiftLeft
  | shiftRightAssign => some shiftRight
  | ampersandAssign => some ampersand
  | pipeAssign => some pipe
  | tildeAssign => some tilde
  | _ => none

end Operator

end Cadence
