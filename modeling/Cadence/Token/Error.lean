import Cadence.Diagnostic.Basic
import Cadence.Token.Basic

/-!
# What can be wrong with the characters of a program

Each cause of an error that is found while tokens are read, and how it is reported.
-/
namespace Cadence

open Source (Span)
open Text (quoted)

/-- Literals that may be left open. -/
inductive LiteralKind where
  | string
  | verbatimString
  | character
  deriving DecidableEq, Repr

def LiteralKind.name : LiteralKind → String
  | string => "string"
  | verbatimString => "verbatim string"
  | character => "character"

/-- Where a run of digit separators is out of place. -/
inductive SeparatorPlace where
  | leading
  | trailing
  | consecutive
  deriving DecidableEq, Repr

def SeparatorPlace.describe : SeparatorPlace → String
  | leading => "leading digit separator"
  | trailing => "trailing digit separator"
  | consecutive => "consecutive digit separators"

inductive LexFault where
  /-- A character that no token starts with. -/
  | strayCharacter (character : Char)
  /-- A character of a number literal that is no digit of its radix. -/
  | invalidDigit (digit : Char) (radix : Radix) (literal : String)
  /-- A radix prefix without digits. -/
  | missingDigits (radixPrefix : String)
  | misplacedSeparator (place : SeparatorPlace)
  /-- A literal that ends with the line instead of a delimiter. -/
  | unterminated (literal : LiteralKind)
  | emptyCharacter
  /-- A literal that is still open at the end of the input. -/
  | unfinished (literal : LiteralKind)
  | unfinishedComment
  | invalidOperator (sign : String)
  deriving DecidableEq, Repr

namespace LexFault

def code : LexFault → ErrorCode
  | strayCharacter _ => .e001
  | invalidDigit _ _ _ | missingDigits _ => .e002
  | misplacedSeparator _ => .e003
  | unterminated _ | emptyCharacter => .e004
  | unfinished _ | unfinishedComment => .e005
  | invalidOperator _ => .e006

def message : LexFault → String
  | strayCharacter character =>
    "failed to lex token at " ++ quoted (String.ofList [character])
  | invalidDigit digit radix literal =>
    "invalid digit " ++ quoted (String.ofList [digit]) ++ " in " ++ radix.name ++ " literal " ++
      quoted literal
  | missingDigits radixPrefix => "missing digits after the " ++ quoted radixPrefix ++ " prefix"
  | misplacedSeparator place => place.describe ++ " in number literal"
  | unterminated literal => "unterminated " ++ literal.name ++ " literal"
  | emptyCharacter => "empty character literal"
  | unfinished literal => "unterminated " ++ literal.name ++ " literal, found end of input"
  | unfinishedComment => "unterminated block comment, found end of input"
  | invalidOperator sign => "invalid operator " ++ quoted sign

/-- What the place of the error is labeled with. -/
def label? : LexFault → Option String
  | unfinished _ => some "the literal starts here"
  | unfinishedComment => some "the comment starts here"
  | _ => none

end LexFault

/-- A fault at its place. -/
structure LexError where
  fault : LexFault
  span : Span
  deriving DecidableEq, Repr

def LexError.diagnostic (error : LexError) : Diagnostic :=
  (Diagnostic.error error.fault.code error.fault.message).highlight
    ⟨error.span, .primary, error.fault.label?⟩

end Cadence
