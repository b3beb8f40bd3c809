import Cadence.Text.CodeRanges
import Cadence.Text.Table.Emoji
import Cadence.Text.Table.Invisible

/-!
# Characters that are drawn as one sign

Some sequences of characters are drawn as one sign: pictures with a skin tone or joined to other
pictures, flags, keys, and ligatures of several scripts.

A sequence is recognized from its end, because what it ends with tells what it is: a selector counts
only behind a character that it applies to, and a letter joins the one behind it. So an `Opening`
says what a text begins with, and `Opening.precededBy?` says which characters in front of it belong
to the same sign and how many columns they add. A column is taken away where the text was counted as
if it stood alone.
-/
namespace Cadence.Text

/-! ## Classes of characters -/

/-- A letter of the alphabet that flags are spelled in. -/
def isFlagLetter (character : Char) : Bool :=
  inRanges [⟨0x1f1e6, 0x1f1ff⟩] character

def isSkinTone (character : Char) : Bool :=
  inRanges [⟨0x1f3fb, 0x1f3ff⟩] character

def isPicture (character : Char) : Bool :=
  inRanges Table.pictures character

/-- A character that the selector of pictures may follow. -/
def isSelectable (character : Char) : Bool :=
  inRanges Table.selectable character

/-- A small letter of a tag. -/
def isTagLetter (character : Char) : Bool :=
  inRanges [⟨0xe0061, 0xe007a⟩] character

/-- A digit of a tag. -/
def isTagDigit (character : Char) : Bool :=
  inRanges [⟨0xe0030, 0xe0039⟩] character

/-- The Arabic letter alef and those of the same shape. -/
def isAlef (character : Char) : Bool :=
  inRanges [⟨0x622, 0x623⟩, ⟨0x625, 0x625⟩, ⟨0x627, 0x627⟩, ⟨0x671, 0x673⟩, ⟨0x675, 0x675⟩,
    ⟨0x773, 0x774⟩, ⟨0x870, 0x882⟩] character

/-- The Arabic letter lam and those of the same shape. -/
def isLam (character : Char) : Bool :=
  inRanges [⟨0x644, 0x644⟩, ⟨0x6b5, 0x6b8⟩, ⟨0x76a, 0x76a⟩, ⟨0x8a6, 0x8a6⟩, ⟨0x8c7, 0x8c7⟩]
    character

/-- Khmer letters that may stand below another one. -/
def isSubscriptable (character : Char) : Bool :=
  inRanges [⟨0x1780, 0x1782⟩, ⟨0x1784, 0x1787⟩, ⟨0x1789, 0x178c⟩, ⟨0x178e, 0x1793⟩,
    ⟨0x1795, 0x1798⟩, ⟨0x179b, 0x179d⟩, ⟨0x17a0, 0x17a0⟩, ⟨0x17a2, 0x17a2⟩, ⟨0x17a7, 0x17a7⟩,
    ⟨0x17ab, 0x17ac⟩, ⟨0x17af, 0x17af⟩] character

/-- Tifinagh letters that may be joined to another one. -/
def isTifinagh (character : Char) : Bool :=
  inRanges [⟨0x2d31, 0x2d65⟩, ⟨0x2d6f, 0x2d6f⟩] character

/-- The Lisu letters for the first half of a tone. -/
def isFirstTone (character : Char) : Bool :=
  inRanges [⟨0xa4f8, 0xa4fb⟩] character

/-- The Lisu letters for the second half of a tone. -/
def isSecondTone (character : Char) : Bool :=
  inRanges [⟨0xa4fc, 0xa4fd⟩] character

/-- Marks without a shape of their own, which leave a ligature around them as it is. -/
def isShapelessMark (character : Char) : Bool :=
  inRanges [⟨0x34f, 0x34f⟩, ⟨0x17b4, 0x17b5⟩, ⟨0x180b, 0x180d⟩, ⟨0x180f, 0x180f⟩, ⟨0xfe00, 0xfe0f⟩,
    ⟨0xe0100, 0xe01ef⟩] character

/-- Marks without a width, across which Arabic letters are joined. -/
def isTransparent (character : Char) : Bool :=
  inRanges Table.invisible character && !inRanges Table.barring character

/-- The joiner, which makes one sign of the characters before and behind it. -/
def joiner : Char := '\u200d'

/-- The selector that asks for a picture. -/
def pictureSelector : Char := '\ufe0f'

/-- The selector that asks for a plain character. -/
def plainSelector : Char := '\ufe0e'

/-! ## What a text begins with -/

/-- The letter at the end of a ligature. -/
inductive LigatureEnd where
  /-- Arabic alef, which may follow a lam. -/
  | alef
  /-- Hebrew lamed, which may be joined to an alef. -/
  | lamed
  /-- A Khmer letter that may stand below another one. -/
  | subscript
  /-- Buginese ya, which may be joined to the vowel i in front of it. -/
  | ya
  /-- The same with the vowel and the joiner, which may follow another ya. -/
  | joinedYa
  /-- A Tifinagh letter, which may be joined to another one. -/
  | tifinagh
  /-- The same with the Tifinagh joiner in front of it. -/
  | joinedTifinagh
  /-- The second half of a Lisu tone. -/
  | secondTone
  /-- Old Turkic i, which may be joined to the letter ec in front of it. -/
  | orkhonI
  deriving DecidableEq, Repr

/-- The end of a ligature and what stands directly in front of it. -/
structure LigatureStart where
  letter : LigatureEnd
  /-- There is a joiner. -/
  joined : Bool
  /-- There is a selector that asks for a picture. -/
  pictured : Bool
  /-- There is a selector that asks for a plain character. -/
  plain : Bool
  deriving DecidableEq, Repr

/-- What a text begins with, as far as a character in front of it may become one sign with it. -/
inductive Opening where
  /-- Nothing of the kind. -/
  | closed
  /-- A line feed, which belongs to a carriage return in front of it. -/
  | lineFeed
  | skinTone
  /-- The last letter of a row of flags. -/
  | flagLetter
  /-- More of such letters. -/
  | flagLetters
  | picture
  /-- A joiner and a picture. -/
  | joinedPicture
  /-- The mark of a key, a joiner and a picture. -/
  | joinedKey
  /-- A letter of a flag, a joiner and a picture. -/
  | joinedLetter
  /-- Letters of flags, a joiner and a picture; the number of letters is even or odd. -/
  | joinedFlags (even : Bool)
  /-- The end of a tag, a joiner and a picture. A tag of letters and digits turns a black flag into
  that of a region. -/
  | tagEnd
  /-- The last letters of such a tag. -/
  | tagLetters (count : Nat)
  /-- Digits in front of the letters of such a tag, if it has any. -/
  | tagDigits (count : Nat)
  /-- The selector of pictures, perhaps in front of a joined picture. -/
  | pictureSelector (joined : Bool)
  | plainSelector
  | ligature (start : LigatureStart)
  deriving DecidableEq, Repr

namespace Opening

/-- The end of a ligature without anything in front of it. -/
def letter (letter : LigatureEnd) : Opening := .ligature ⟨letter, false, false, false⟩

/-- What a text begins with whose first character is not joined to what follows. -/
def ofCharacter (character : Char) : Opening :=
  if character = '\n' then .lineFeed
  else if character = Text.pictureSelector then .pictureSelector false
  else if character = Text.plainSelector then .plainSelector
  else if isFlagLetter character then .flagLetter
  else if isSkinTone character then .skinTone
  else if isPicture character then .picture
  else if isAlef character then letter .alef
  else if character.toNat = 0x5dc then letter .lamed
  else if isSubscriptable character then letter .subscript
  else if character.toNat = 0x1a10 then letter .ya
  else if isTifinagh character then letter .tifinagh
  else if isSecondTone character then letter .secondTone
  else if character.toNat = 0x10c03 then letter .orkhonI
  else .closed

/-- The selector of pictures in front of a text. It ends all sequences but joined pictures and
ligatures. -/
def withPictureSelector : Opening → Opening
  | .ligature start => .ligature { start with pictured := true }
  | .joinedPicture | .joinedKey => .pictureSelector true
  | _ => .pictureSelector false

/-- The selector of plain characters in front of a text. It ends all sequences but ligatures. -/
def withPlainSelector : Opening → Opening
  | .ligature start => .ligature { start with plain := true }
  | _ => .plainSelector

/-- The columns to add for a character that the selector of pictures applies to. A picture that is
joined to another one takes none. -/
def pictureColumns? : Opening → Option Int
  | .pictureSelector joined => some (if joined then 0 else 2)
  | .ligature start => if start.pictured then some 2 else none
  | _ => none

/-- The text as it is for a character that the selector of pictures does not apply to. -/
def withoutPictureSelector : Opening → Opening
  | .pictureSelector _ => .closed
  | .ligature start => .ligature { start with pictured := false }
  | opening => opening

/-- Whether the text begins with a selector of plain characters. -/
def asksForPlain : Opening → Bool
  | .plainSelector => true
  | .ligature start => start.plain
  | _ => false

/-- The text as it is for a character that the selector of plain characters does not apply to. -/
def withoutPlainSelector : Opening → Opening
  | .plainSelector => .closed
  | .ligature start => .ligature { start with plain := false }
  | opening => opening

end Opening

/-! ## Sequences -/

/-- The columns that a character adds, and what the text that it starts begins with. -/
structure Joined where
  columns : Int
  opening : Opening
  deriving DecidableEq, Repr

/-- A character that forms a ligature with the letters behind it. -/
def LigatureStart.joinedBy? (start : LigatureStart) (character : Char) : Option Joined :=
  match start.letter with
  | .alef =>
    if isLam character then some ⟨0, .closed⟩
    else if isTransparent character then some ⟨0, .ligature start⟩
    else none
  | .lamed => if start.joined ∧ character.toNat = 0x5d0 then some ⟨0, .closed⟩ else none
  | .subscript => if character.toNat = 0x17d2 then some ⟨-1, .closed⟩ else none
  | .ya => if start.joined ∧ character.toNat = 0x1a17 then some ⟨0, .letter .joinedYa⟩ else none
  | .joinedYa => if character.toNat = 0x1a15 then some ⟨0, .closed⟩ else none
  | .tifinagh =>
    if character.toNat = 0x2d7f then some ⟨1, .letter .joinedTifinagh⟩
    else if start.joined ∧ isTifinagh character then some ⟨0, .closed⟩
    else none
  | .joinedTifinagh => if isTifinagh character then some ⟨-1, .closed⟩ else none
  | .secondTone => if isFirstTone character then some ⟨0, .closed⟩ else none
  | .orkhonI => if start.joined ∧ character.toNat = 0x10c32 then some ⟨0, .closed⟩ else none

/-- A character that belongs to a ligature with the letters behind it. Within every ligature but the
Arabic one joiners and marks without a shape may stand between the letters. -/
def LigatureStart.precededBy? (start : LigatureStart) (character : Char) : Option Joined :=
  if start.letter = .alef then start.joinedBy? character
  else if character = joiner then some ⟨0, .ligature { start with joined := true }⟩
  else if isShapelessMark character then some ⟨0, .ligature start⟩
  else start.joinedBy? character

/-- A character that becomes one sign with what the text behind it begins with. The letters of flags
pair up from the front: if their number in front of a joined picture is even, the last flag and the
picture are one sign of two columns; if it is odd, the last letter has a column of its own. -/
def Opening.precededBy? (opening : Opening) (character : Char) : Option Joined :=
  let joins (joined : Joined) (condition : Bool) : Option Joined :=
    if condition then some joined else none
  let join := joins ⟨0, .joinedPicture⟩ (character = joiner)
  match opening with
  | .closed | .lineFeed | .joinedKey | .pictureSelector _ | .plainSelector => none
  | .skinTone => joins ⟨0, .picture⟩ (inRanges Table.modifiable character) <|> join
  | .flagLetter => joins ⟨1, .flagLetters⟩ (isFlagLetter character)
  | .flagLetters => joins ⟨1, .flagLetters⟩ (isFlagLetter character) <|> join
  | .picture => join
  | .joinedPicture =>
    joins ⟨0, .joinedKey⟩ (character.toNat = 0x20e3) <|>
    joins ⟨1, .joinedLetter⟩ (isFlagLetter character) <|>
    joins ⟨0, .skinTone⟩ (isSkinTone character) <|>
    joins ⟨0, .tagEnd⟩ (character.toNat = 0xe007f) <|>
    joins ⟨0, .picture⟩ (isPicture character)
  | .joinedLetter => joins ⟨-1, .joinedFlags true⟩ (isFlagLetter character)
  | .joinedFlags even =>
    joins ⟨if even then 3 else -1, .joinedFlags (!even)⟩ (isFlagLetter character) <|> join
  | .tagEnd =>
    joins ⟨0, .tagLetters 1⟩ (isTagLetter character) <|>
    joins ⟨0, .tagDigits 1⟩ (isTagDigit character)
  | .tagLetters count =>
    joins ⟨0, .tagLetters (count + 1)⟩ (isTagLetter character && count < 6) <|>
    joins ⟨0, .tagDigits 1⟩ (isTagDigit character && count ≤ 4) <|>
    joins ⟨0, .picture⟩ (character.toNat = 0x1f3f4 && 3 ≤ count)
  | .tagDigits count =>
    joins ⟨0, .tagDigits (count + 1)⟩ (isTagDigit character && count < 3) <|>
    joins ⟨0, .picture⟩ (character.toNat = 0x1f3f4 && count = 3)
  | .ligature start => start.precededBy? character

end Cadence.Text
