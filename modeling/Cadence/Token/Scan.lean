import Cadence.Source.File
import Cadence.Token.Literal
import Cadence.Token.Number
import Cadence.Token.Sign

/-!
# The tokens of a file

A file is read from left to right. At each position the first characters decide what is read there:
white space, a comment, or a token. Reading goes on behind what was taken, whether it was in order
or not. The last token stands for the end of the input.
-/
namespace Cadence

open Source (File Span byteSize)
open Text (apostrophe isBlank quotationMark)

/-- The inside of a block comment with its end: how many characters it takes, and whether it has an
end. -/
def blockComment : List Char → Nat × Bool
  | [] => (0, false)
  | '*' :: '/' :: _ => (2, true)
  | _ :: rest =>
    let (size, closed) := blockComment rest
    (size + 1, closed)

/-- Skip the block comment at the start of a text. -/
def readBlockComment (text : List Char) : Reading :=
  let (size, closed) := blockComment (text.drop 2)
  if closed then .skip (size + 1) else .fault text (size + 1) .unfinishedComment

/-- Skip the line comment at the start of a text together with its line feed. -/
def readLineComment (text : List Char) : Reading :=
  let size := (text.takeWhile (· ≠ '\n')).length
  if size < text.length then .skip size else .skip (size - 1)

/-- Read dots. -/
def readDots : List Char → Reading
  | '.' :: '.' :: '.' :: _ => .mark 2 .varargs
  | '.' :: '.' :: _ => .mark 1 .rangeOf
  | _ => .mark 0 .dot

/-- What a word is: an underscore, a keyword, the name of a builtin type, or an identifier. -/
def Lexeme.ofWord (word : String) : Lexeme :=
  if word = "_" then .punctuation .wildcard
  else
    match Keyword.ofName? word with
    | some reserved => .keyword reserved
    | none =>
      match BuiltinType.ofName? word with
      | some builtin => .builtinType builtin
      | none => .identifier word

/-- Read the word at the start of a text. -/
def readWord (text : List Char) : Reading :=
  let middle := text.tail.takeWhile isIdentifierMiddle
  .token middle.length (.ofWord (String.ofList (text.take 1 ++ middle)))

/-- Read the directive at the start of a text. -/
def readDirective (text : List Char) : Reading :=
  let name := text.tail.takeWhile isIdentifierMiddle
  .token name.length (.directive (String.ofList name))

/-- The brackets and the other marks of a single character. -/
def singleMark? : Char → Option Punctuation
  | '(' => some .openingRoundBracket
  | ')' => some .closingRoundBracket
  | '[' => some .openingSquareBracket
  | ']' => some .closingSquareBracket
  | '\x7b' => some .openingCurlyBracket
  | '\x7d' => some .closingCurlyBracket
  | ',' => some .comma
  | ':' => some .colon
  | ';' => some .semicolon
  | _ => none

/-- Whether the second character of a text is there and of some kind. -/
def secondIs (test : Char → Bool) (text : List Char) : Bool := (text.tail.head?.map test).getD false

/-- Read at the start of a text that begins with the given character. -/
def Reading.ofText (first : Char) (rest : List Char) : Reading :=
  let text := first :: rest
  if isBlank first then .skip 0
  else if first = '/' ∧ secondIs (· = '#') text then readLineComment text
  else if first = '/' ∧ secondIs (· = '*') text then readBlockComment text
  else if first = '.' then readDots text
  else if ['-', '-', '-'].isPrefixOf text then .mark 2 .uninitialized
  else if first = '_' ∧ secondIs Char.isDigit text then NumberLiteral.read text
  else if isIdentifierStart first then readWord text
  else if isSignStart first then readSign text
  else if first.isDigit then NumberLiteral.read text
  else
    match singleMark? first with
    | some mark => .mark 0 mark
    | none =>
      if first = quotationMark then readString text
      else if first = backtick then readVerbatimString text
      else if first = apostrophe then readCharacter text
      else if first = '#' ∧ secondIs isIdentifierStart text then readDirective text
      else .fault text 0 (.strayCharacter first)

/-- What reading a text yields. -/
structure Lexed where
  tokens : List Token
  errors : List LexError
  /-- Whether anything was wrong at some position. -/
  tainted : Bool
  deriving DecidableEq, Repr

namespace Lexed

/-- Put the outcome of reading some characters in front. -/
def push (start : Nat) (taken : List Char) (reading : Reading) (lexed : Lexed) : Lexed where
  tokens :=
    match reading.lexeme? with
    | some lexeme =>
      ⟨lexeme, ⟨start, start + byteSize taken⟩, String.ofList taken⟩ :: lexed.tokens
    | none => lexed.tokens
  errors :=
    (reading.errors.map fun error => { error with span := error.span.shift start }) ++ lexed.errors
  tainted := reading.failed || lexed.tainted

/-- The tokens of a text that starts at the index `start`. -/
def ofText (start : Nat) (text : List Char) : Lexed :=
  match text with
  | [] => ⟨[⟨.endOfInput, .emptyAt start, ""⟩], [], false⟩
  | first :: rest =>
    let reading := Reading.ofText first rest
    let taken := first :: rest.take reading.extra
    (ofText (start + byteSize taken) (rest.drop reading.extra)).push start taken reading
  termination_by text.length
  decreasing_by
    simp only [List.length_drop, List.length_cons]
    omega

/-- The tokens of a file. -/
def ofFile (file : File) : Lexed := ofText file.start file.content

def diagnostics (lexed : Lexed) : List Diagnostic := lexed.errors.map LexError.diagnostic

end Lexed

end Cadence
