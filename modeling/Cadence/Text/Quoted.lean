import Cadence.Text.CharacterClass

/-!
# Quoted characters and texts

A text between quotes in which every character can be seen: line breaks, tabs, the backslash and
the quote itself are written with a backslash, and so is every character that has no shape or that
would be drawn upon the quote, as the number of its code point in hexadecimal.
-/
namespace Cadence.Text

/-- The apostrophe that delimits a character. -/
def apostrophe : Char := '\x27'

/-- The quotation mark that delimits a text. -/
def quotationMark : Char := '\x22'

/-- The number of a character between curly brackets, in lower case hexadecimal digits. -/
def codePointEscape (character : Char) : List Char :=
  ['\\', 'u', '\x7b'] ++ Nat.toDigits 16 character.toNat ++ ['\x7d']

/-- One character as it is written between two `quote` characters. -/
def escaped (quote character : Char) : List Char :=
  if character = '\x00' then ['\\', '0']
  else if character = '\t' then ['\\', 't']
  else if character = '\r' then ['\\', 'r']
  else if character = '\n' then ['\\', 'n']
  else if character = '\\' then ['\\', '\\']
  else if character = quote then ['\\', quote]
  else if isExtending character || !isPrintable character then codePointEscape character
  else [character]

/-- A character between apostrophes. -/
def quotedCharacter (character : Char) : String :=
  String.ofList (apostrophe :: escaped apostrophe character ++ [apostrophe])

/-- A text between quotation marks. -/
def quotedText (text : String) : String :=
  String.ofList (quotationMark :: text.toList.flatMap (escaped quotationMark) ++ [quotationMark])

end Cadence.Text
