import Cadence.Text.Table.Alphabetic
import Cadence.Text.Table.Extending
import Cadence.Text.Table.Numeric
import Cadence.Text.Table.Unprintable

/-!
# Classes of characters

The classes that the language and its printers distinguish: white space, letters, numbers, marks
that extend the character before them, and characters without a shape of their own.
-/
namespace Cadence.Text

/-- The property `White_Space`. -/
def isBlank (character : Char) : Bool :=
  inRanges [⟨0x9, 0xd⟩, ⟨0x20, 0x20⟩, ⟨0x85, 0x85⟩, ⟨0xa0, 0xa0⟩, ⟨0x1680, 0x1680⟩,
    ⟨0x2000, 0x200a⟩, ⟨0x2028, 0x2029⟩, ⟨0x202f, 0x202f⟩, ⟨0x205f, 0x205f⟩, ⟨0x3000, 0x3000⟩]
    character

/-- The property `Alphabetic`. -/
def isLetter (character : Char) : Bool :=
  inRanges Table.alphabetic character

/-- A decimal digit, a letter number or any other number. -/
def isNumber (character : Char) : Bool :=
  inRanges Table.numeric character

/-- The halfwidth katakana sound marks, which extend the character before them without being drawn
upon it. -/
def isSoundMark (character : Char) : Bool :=
  inRanges [⟨0xff9e, 0xff9f⟩] character

/-- A mark that is drawn upon the character before it. -/
def isExtending (character : Char) : Bool :=
  inRanges Table.extending character && !isSoundMark character

/-- The letters of the Korean alphabet that stand for a missing one and are blank. -/
def isFiller (character : Char) : Bool :=
  inRanges [⟨0x115f, 0x1160⟩, ⟨0x3164, 0x3164⟩, ⟨0xffa0, 0xffa0⟩] character

/-- A character with a shape of its own, the space included. -/
def isPrintable (character : Char) : Bool :=
  !(inRanges Table.unprintable character || isFiller character)

/-- The white space that every program knows is white space here. -/
theorem isBlank_of_isWhitespace {character : Char} (blank : character.isWhitespace = true) :
    isBlank character = true := by
  simp only [Char.isWhitespace, Bool.or_eq_true, decide_eq_true_eq] at blank
  rcases blank with ((rfl | rfl) | rfl) | rfl <;> decide

end Cadence.Text
