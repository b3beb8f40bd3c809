import Cadence.Text.SignSequence
import Cadence.Text.Table.Wide

/-!
# The width of a text on a terminal

A text takes a number of columns. Most characters take one, wide ones two, and marks, joiners and
other invisible characters none; a sequence that is drawn as one sign takes fewer columns than its
characters would alone. The columns are added up from the end of the text.
-/
namespace Cadence.Text

/-- The number of columns that a character takes alone. Two Khmer signs stand for two and three
others. -/
def characterWidth (character : Char) : Nat :=
  if character.toNat = 0x17a4 then 2
  else if character.toNat = 0x17d8 then 3
  else if inRanges Table.invisible character then 0
  else if inRanges Table.wide character then 2
  else 1

/-- A character in front of a text that does not begin with a selector of pictures for it. Up to
U+00A0 every character stands alone, but that a line feed belongs to a carriage return. -/
def Opening.before (opening : Opening) (character : Char) : Joined :=
  if character = '\r' ∧ opening = .lineFeed then ⟨0, .closed⟩
  else if character.toNat ≤ 0xa0 then ⟨1, if character = '\n' then .lineFeed else .closed⟩
  else if character = Text.pictureSelector then ⟨0, opening.withPictureSelector⟩
  else if character = Text.plainSelector then ⟨0, opening.withPlainSelector⟩
  else if opening.asksForPlain && inRanges Table.narrowed character then ⟨1, .closed⟩
  else
    (opening.withoutPlainSelector.precededBy? character).getD
      ⟨characterWidth character, .ofCharacter character⟩

/-- The columns of a text and what it begins with. -/
structure Columns where
  total : Int
  opening : Opening
  deriving DecidableEq, Repr

def Columns.empty : Columns := ⟨0, .closed⟩

/-- Put a character in front of a text. -/
def Columns.prepend (character : Char) (columns : Columns) : Columns :=
  match columns.opening.pictureColumns?, isSelectable character with
  | some added, true => ⟨columns.total + added, .picture⟩
  | _, _ =>
    let joined := columns.opening.withoutPictureSelector.before character
    ⟨columns.total + joined.columns, joined.opening⟩

/-- The number of columns that a text takes. -/
def textWidth (text : List Char) : Nat :=
  (text.foldr Columns.prepend .empty).total.toNat

end Cadence.Text
