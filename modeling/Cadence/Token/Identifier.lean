import Cadence.Text.CharacterClass

/-!
# The characters of names

A name starts with a letter or an underscore. Letters, numbers, combining marks, connecting
punctuation and format characters may follow.
-/
namespace Cadence

open Text (CodeRange inRanges isLetter isNumber)

def isCombiningMark (character : Char) : Bool :=
  inRanges [⟨0x300, 0x36f⟩, ⟨0x1ab0, 0x1aff⟩, ⟨0x1dc0, 0x1dff⟩, ⟨0x20d0, 0x20ff⟩, ⟨0xfe20, 0xfe2f⟩]
    character

def isConnector (character : Char) : Bool :=
  inRanges [⟨0x5f, 0x5f⟩, ⟨0x203f, 0x2040⟩, ⟨0x2054, 0x2054⟩, ⟨0xfe33, 0xfe34⟩, ⟨0xfe4d, 0xfe4f⟩,
    ⟨0xff3f, 0xff3f⟩] character

def isFormatCharacter (character : Char) : Bool :=
  inRanges [⟨0xad, 0xad⟩, ⟨0x200b, 0x200f⟩, ⟨0x202a, 0x202e⟩, ⟨0x2060, 0x2064⟩, ⟨0xfeff, 0xfeff⟩]
    character

/-- Whether a name can start with the character. -/
def isIdentifierStart (character : Char) : Bool := isLetter character || character = '_'

/-- Whether a name can go on with the character. -/
def isIdentifierMiddle (character : Char) : Bool :=
  isLetter character || isNumber character || isCombiningMark character || isConnector character ||
    isFormatCharacter character

theorem isIdentifierMiddle_of_start {character : Char}
    (start : isIdentifierStart character = true) : isIdentifierMiddle character = true := by
  simp only [isIdentifierStart, Bool.or_eq_true, decide_eq_true_eq] at start
  rcases start with letter | rfl
  · simp [isIdentifierMiddle, letter]
  · have connector : isConnector '_' = true := by decide
    simp [isIdentifierMiddle, connector]

end Cadence
