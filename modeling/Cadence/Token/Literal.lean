import Cadence.Text.Quoted
import Cadence.Token.Reading

/-!
# String and character literals

A string stands between quotation marks on one line and may hold escape sequences. A verbatim
string stands between backticks and may go over several lines; only a backtick is escaped in it. A
character stands between apostrophes.
-/
namespace Cadence

open Text (apostrophe quotationMark)

/-- The delimiter of verbatim strings. -/
def backtick : Char := '\x60'

/-- What the character behind a backslash stands for: itself, unless it names a control character.
-/
def escapedCharacter : Char → Char
  | 'n' => '\n'
  | 't' => '\t'
  | 'r' => '\r'
  | '0' => '\x00'
  | 'a' => '\x07'
  | 'b' => '\x08'
  | 'f' => '\x0c'
  | 'v' => '\x0b'
  | character => character

/-- How the inside of a literal ends. -/
inductive LiteralEnd where
  /-- With its delimiter. -/
  | closed
  /-- At the end of the line. -/
  | atLineEnd
  /-- At the end of the input. -/
  | atInputEnd
  deriving DecidableEq, Repr

/-- The inside of a literal together with its closing delimiter. -/
structure LiteralBody where
  content : List Char
  /-- How many characters are taken, the delimiter included. -/
  size : Nat
  ending : LiteralEnd
  deriving DecidableEq, Repr

/-- Put a character that takes `size` characters of source text in front. -/
def LiteralBody.cons (character : Char) (size : Nat) (body : LiteralBody) : LiteralBody :=
  { body with content := character :: body.content, size := size + body.size }

/-- The inside of a string, from behind its opening quotation mark. -/
def stringBody : List Char → LiteralBody
  | [] => ⟨[], 0, .atInputEnd⟩
  | character :: rest =>
    if character = quotationMark then ⟨[], 1, .closed⟩
    else if character = '\n' then ⟨[], 0, .atLineEnd⟩
    else if character = '\\' then
      match rest with
      | [] => ⟨[], 1, .atInputEnd⟩
      | next :: rest => (stringBody rest).cons (escapedCharacter next) 2
    else (stringBody rest).cons character 1

/-- The inside of a verbatim string, from behind its opening backtick. -/
def verbatimBody : List Char → LiteralBody
  | [] => ⟨[], 0, .atInputEnd⟩
  | character :: rest =>
    if character = backtick then ⟨[], 1, .closed⟩
    else
      match rest with
      | [] => (verbatimBody []).cons character 1
      | next :: others =>
        if character = '\\' ∧ next = backtick then (verbatimBody others).cons backtick 2
        else (verbatimBody (next :: others)).cons character 1

/-- The reading of a string whose opening delimiter is the first character of the text. -/
def LiteralBody.reading (text : List Char) (kind : LiteralKind) (body : LiteralBody) : Reading :=
  match body.ending with
  | .closed => .token body.size (.text (String.ofList body.content))
  | .atLineEnd => .fault text body.size (.unterminated kind)
  | .atInputEnd => .fault text body.size (.unfinished kind)

/-- Read the string at the start of a text. -/
def readString (text : List Char) : Reading := (stringBody text.tail).reading text .string

/-- Read the verbatim string at the start of a text. -/
def readVerbatimString (text : List Char) : Reading :=
  (verbatimBody text.tail).reading text .verbatimString

/-- Finish a character literal of which `extra` characters are taken behind the first one. -/
def closeCharacter (text : List Char) (extra : Nat) (character : Char) : Reading :=
  match text.drop (extra + 1) with
  | [] => .fault text extra (.unfinished .character)
  | next :: _ =>
    if next = apostrophe then .token (extra + 1) (.character character)
    else .fault text extra (.unterminated .character)

/-- Read the character literal at the start of a text. -/
def readCharacter (text : List Char) : Reading :=
  match text.tail with
  | [] => .fault text 0 (.unfinished .character)
  | character :: rest =>
    if character = '\\' then
      match rest with
      | [] => .fault text 1 (.unfinished .character)
      | next :: _ => closeCharacter text 2 (escapedCharacter next)
    else if character = '\n' then .fault text 0 (.unterminated .character)
    else if character = apostrophe then .fault text 1 .emptyCharacter
    else closeCharacter text 1 character

end Cadence
