import Cadence.Source.Span
import Cadence.Text.Listing
import Cadence.Text.Quoted
import Cadence.Token.Operator
import Cadence.Token.Word

/-!
# Tokens

The smallest parts of a source text that have a meaning: names, punctuation, operators and
literals. A token keeps the place it was found at and its image, the exact text there.
-/
namespace Cadence

open Source (Span)
open Text (quoted quotedCharacter quotedText)

/-- The base in which an integer literal is written. -/
inductive Radix where
  | binary
  | decimal
  | hexadecimal
  deriving DecidableEq, Repr

namespace Radix

def value : Radix → Nat
  | binary => 2
  | decimal => 10
  | hexadecimal => 16

def name : Radix → String
  | binary => "binary"
  | decimal => "decimal"
  | hexadecimal => "hexadecimal"

def title : Radix → String
  | binary => "Binary"
  | decimal => "Decimal"
  | hexadecimal => "Hexadecimal"

end Radix

/-- Tokens that are written in one way only and carry nothing else. -/
inductive Punctuation where
  /-- An underscore. -/
  | wildcard
  /-- Three dots. -/
  | varargs
  /-- Three minus signs. -/
  | uninitialized
  /-- Two dots. -/
  | rangeOf
  | dot
  | comma
  | colon
  | semicolon
  | openingRoundBracket
  | closingRoundBracket
  | openingSquareBracket
  | closingSquareBracket
  | openingCurlyBracket
  | closingCurlyBracket
  /-- The equals sign of a definition or an assignment. -/
  | assign
  /-- The arrow in front of a result. -/
  | thinArrowRight
  deriving DecidableEq, Repr

namespace Punctuation

/-- The token as it is written. -/
def symbol : Punctuation → String
  | wildcard => "_"
  | varargs => "..."
  | uninitialized => "---"
  | rangeOf => ".."
  | dot => "."
  | comma => ","
  | colon => ":"
  | semicolon => ";"
  | openingRoundBracket => "("
  | closingRoundBracket => ")"
  | openingSquareBracket => "["
  | closingSquareBracket => "]"
  | openingCurlyBracket => "\x7b"
  | closingCurlyBracket => "\x7d"
  | assign => "="
  | thinArrowRight => "->"

/-- The token as it is called. -/
def title : Punctuation → String
  | wildcard => "Wildcard"
  | varargs => "Varargs"
  | uninitialized => "Uninitialized"
  | rangeOf => "RangeOf"
  | dot => "Dot"
  | comma => "Comma"
  | colon => "Colon"
  | semicolon => "Semicolon"
  | openingRoundBracket => "OpeningRoundBracket"
  | closingRoundBracket => "ClosingRoundBracket"
  | openingSquareBracket => "OpeningSquareBracket"
  | closingSquareBracket => "ClosingSquareBracket"
  | openingCurlyBracket => "OpeningCurlyBracket"
  | closingCurlyBracket => "ClosingCurlyBracket"
  | assign => "Assign"
  | thinArrowRight => "ThinArrowRight"

end Punctuation

/-- A token without its place. -/
inductive Lexeme where
  | identifier (name : String)
  | keyword (keyword : Keyword)
  | builtinType (type : BuiltinType)
  | punctuation (punctuation : Punctuation)
  | operator (operator : Operator)
  /-- An integer literal. Its digits come without a prefix and without separators. -/
  | integer (digits : String) (radix : Radix)
  /-- A real literal without its separators. -/
  | real (literal : String)
  /-- A string literal with its escape sequences resolved. -/
  | text (content : String)
  | character (character : Char)
  /-- An instruction to the compiler, without its hash sign. -/
  | directive (name : String)
  | endOfInput
  deriving DecidableEq, Repr

/-- What kind of token it is. -/
inductive TokenName where
  | identifier
  | keyword (keyword : Keyword)
  | builtinType
  | punctuation (punctuation : Punctuation)
  | operator (operator : Operator)
  | integer
  | real
  | text
  | character
  | directive
  | endOfInput
  deriving DecidableEq, Repr

/-- The kind of token as messages call it. -/
def TokenName.display : TokenName → String
  | identifier => "identifier"
  | keyword word => "keyword " ++ quoted word.name
  | builtinType => "builtin type"
  | punctuation mark => quoted mark.symbol
  | operator sign => "operator " ++ quoted sign.name
  | integer => "integer literal"
  | real => "real literal"
  | text => "string literal"
  | character => "character literal"
  | directive => "directive"
  | endOfInput => "end of input"

namespace Lexeme

def name : Lexeme → TokenName
  | identifier _ => .identifier
  | keyword word => .keyword word
  | builtinType _ => .builtinType
  | punctuation mark => .punctuation mark
  | operator sign => .operator sign
  | integer _ _ => .integer
  | real _ => .real
  | text _ => .text
  | character _ => .character
  | directive _ => .directive
  | endOfInput => .endOfInput

/-- The token with everything it carries, as listings of tokens show it. -/
def listing : Lexeme → String
  | identifier name => "Identifier(" ++ quotedText name ++ ")"
  | keyword word => "Keyword(" ++ word.name.capitalize ++ ")"
  | builtinType type => "BuiltinTypeName(" ++ type.name.capitalize ++ ")"
  | punctuation mark => mark.title
  | operator sign => "Operator(" ++ sign.title ++ ")"
  | integer digits radix =>
    "Integer \x7b digits: " ++ quotedText digits ++ ", radix: " ++ radix.title ++ " \x7d"
  | real literal => "Real(" ++ quotedText literal ++ ")"
  | text content => "Text(" ++ quotedText content ++ ")"
  | character value => "Character(" ++ quotedCharacter value ++ ")"
  | directive name => "Directive(" ++ quotedText name ++ ")"
  | endOfInput => "EndOfInput"

end Lexeme

/-- A token at its place. -/
structure Token where
  lexeme : Lexeme
  span : Span
  /-- The exact source text under the span. -/
  image : String
  deriving DecidableEq, Repr

namespace Token

def name (token : Token) : TokenName := token.lexeme.name

def identifier? (token : Token) : Option String :=
  match token.lexeme with
  | .identifier name => some name
  | _ => none

/-- The line that stands for the token in a listing. -/
def listing (token : Token) : String :=
  token.lexeme.listing ++ " " ++ token.span.text ++ " " ++ quotedText token.image

end Token

end Cadence
