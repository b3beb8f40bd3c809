import Cadence.Source.Bytes
import Cadence.Token.Error

/-!
# What is read at one position

Reading at a position takes the character there and some of those that follow. It may yield a
token, and it may find faults. Their spans are counted from the position.
-/
namespace Cadence

open Source (Span byteSize)

/-- The outcome of reading at one position of a text. -/
structure Reading where
  /-- How many characters are taken behind the first one. -/
  extra : Nat
  /-- The token that covers all taken characters, if they make one. -/
  lexeme? : Option Lexeme
  errors : List LexError := []
  /-- Whether anything was wrong. -/
  failed : Bool := false
  deriving DecidableEq, Repr

namespace Reading

/-- Characters that make no token. -/
def skip (extra : Nat) : Reading := { extra, lexeme? := none }

/-- Characters that make a token. -/
def token (extra : Nat) (lexeme : Lexeme) : Reading := { extra, lexeme? := some lexeme }

def mark (extra : Nat) (punctuation : Punctuation) : Reading :=
  token extra (.punctuation punctuation)

/-- Characters that all belong to one fault. -/
def fault (text : List Char) (extra : Nat) (fault : LexFault) : Reading where
  extra
  lexeme? := none
  errors := [⟨fault, 0, byteSize (text.take (extra + 1))⟩]
  failed := true

end Reading

end Cadence
