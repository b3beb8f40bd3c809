import Cadence.Token.Identifier
import Cadence.Token.Reading

/-!
# Number literals

A number literal has one or more groups of digits: those behind a radix prefix, or the integer
part, the fraction and the exponent. A single underscore may separate two digits of a group.
Characters of names that follow directly belong to the last group, where they are reported as
invalid digits. The literal is kept as a token even if something is wrong with it.
-/
namespace Cadence

open Source (Span byteSize)

/-- The character that separates digits. -/
def digitSeparator : Char := '_'

def isDigitOrSeparator (character : Char) : Bool :=
  character.isDigit || character = digitSeparator

namespace Radix

/-- Whether the character is a digit in the radix. -/
def isDigit : Radix → Char → Bool
  | binary, character => character = '0' || character = '1'
  | decimal, character => character.isDigit
  | hexadecimal, character =>
    character.isDigit || ('a' ≤ character && character ≤ 'f') ||
      ('A' ≤ character && character ≤ 'F')

end Radix

/-- Digits and separators that stand together. -/
structure DigitGroup where
  /-- The number of bytes of the literal in front of the group. -/
  start : Nat
  digits : List Char
  deriving DecidableEq, Repr

namespace DigitGroup

def withoutSeparators (group : DigitGroup) : List Char :=
  group.digits.filter (· ≠ digitSeparator)

/-- Each run of separators that is not a single one between two digits. `inside` tells whether
there are digits in front, and `start` is where the rest of the group starts. -/
def separatorErrors (inside : Bool) (start : Nat) : List Char → List LexError
  | [] => []
  | digit :: rest =>
    if digit = digitSeparator then
      let run := rest.takeWhile (· = digitSeparator)
      let others := rest.dropWhile (· = digitSeparator)
      let stop := start + digitSeparator.utf8Size * (run.length + 1)
      let error (place : SeparatorPlace) : List LexError :=
        [⟨.misplacedSeparator place, start, stop⟩]
      (if !inside then error .leading
        else if others = [] then error .trailing
        else if run ≠ [] then error .consecutive
        else []) ++ separatorErrors true stop others
    else separatorErrors true (start + digit.utf8Size) rest
  termination_by digits => digits.length
  decreasing_by
    · have := rest.dropWhile_suffix (p := fun digit => decide (digit = digitSeparator))
      have := this.length_le
      simp only [List.length_cons, gt_iff_lt]
      omega
    · simp

/-- Each character that is neither a separator nor a digit of the radix. -/
def digitErrors (radix : Radix) (literal : String) (start : Nat) : List Char → List LexError
  | [] => []
  | digit :: rest =>
    let stop := start + digit.utf8Size
    if digit = digitSeparator ∨ radix.isDigit digit then digitErrors radix literal stop rest
    else ⟨.invalidDigit digit radix literal, start, stop⟩ :: digitErrors radix literal stop rest

end DigitGroup

/-- A number literal, taken apart. -/
structure NumberLiteral where
  radix : Radix
  isReal : Bool
  groups : List DigitGroup
  /-- All characters of the literal. -/
  image : List Char
  deriving DecidableEq, Repr

namespace NumberLiteral

/-- The radix that the literal announces by its first two characters. -/
def announced? : List Char → Option Radix
  | '0' :: 'x' :: _ => some .hexadecimal
  | '0' :: 'b' :: _ => some .binary
  | _ => none

/-- The dot of a fraction, which a digit has to follow. -/
def fractionMark : List Char → List Char
  | '.' :: digit :: _ => if digit.isDigit then ['.'] else []
  | _ => []

/-- The letter and the sign of an exponent, which a digit has to follow. -/
def exponentMark : List Char → List Char
  | letter :: next :: rest =>
    if letter = 'e' ∨ letter = 'E' then
      if next = '+' ∨ next = '-' then
        match rest with
        | digit :: _ => if digit.isDigit then [letter, next] else []
        | [] => []
      else if next.isDigit then [letter]
      else []
    else []
  | _ => []

/-- A group of digits behind a mark. -/
structure Part where
  mark : List Char
  digits : List Char

/-- The part of a literal that a mark introduces, if there is one. -/
def part? (mark : List Char) (text : List Char) : Option Part :=
  if mark = [] then none
  else some ⟨mark, (text.drop mark.length).takeWhile isDigitOrSeparator⟩

def Part.image (part : Part) : List Char := part.mark ++ part.digits

/-- Put further characters at the end of the last group. -/
def extendLast (tail : List Char) : List DigitGroup → List DigitGroup
  | [] => []
  | [group] => [{ group with digits := group.digits ++ tail }]
  | group :: rest => group :: extendLast tail rest

/-- The groups of the parts of a literal, the first of which starts at `start`. -/
def groupsOf (start : Nat) : List Part → List DigitGroup
  | [] => []
  | part :: rest =>
    ⟨start + byteSize part.mark, part.digits⟩ :: groupsOf (start + byteSize part.image) rest

/-- The literal that a text starts with. -/
def ofText (text : List Char) : NumberLiteral :=
  match announced? text with
  | some radix =>
    let digits := (text.drop 2).takeWhile isIdentifierMiddle
    { radix, isReal := false
      groups := [⟨byteSize (text.take 2), digits⟩]
      image := text.take 2 ++ digits }
  | none =>
    let whole : Part := ⟨[], text.takeWhile isDigitOrSeparator⟩
    let behindWhole := text.drop whole.image.length
    let fraction := part? (fractionMark behindWhole) behindWhole
    let behindFraction := behindWhole.drop ((fraction.map Part.image).getD []).length
    let exponent := part? (exponentMark behindFraction) behindFraction
    let behindExponent := behindFraction.drop ((exponent.map Part.image).getD []).length
    let tail := behindExponent.takeWhile isIdentifierMiddle
    let parts := whole :: fraction.toList ++ exponent.toList
    { radix := .decimal
      isReal := fraction.isSome || exponent.isSome
      groups := extendLast tail (groupsOf 0 parts)
      image := parts.flatMap Part.image ++ tail }

/-- Everything that is wrong with the literal. -/
def errors (literal : NumberLiteral) : List LexError :=
  let image := String.ofList literal.image
  let digits := literal.groups.flatMap DigitGroup.withoutSeparators
  literal.groups.flatMap (fun group =>
    DigitGroup.separatorErrors false group.start group.digits) ++
  literal.groups.flatMap (fun group =>
    DigitGroup.digitErrors literal.radix image group.start group.digits) ++
  if literal.radix ≠ .decimal ∧ digits = [] then
    [⟨.missingDigits (String.ofList (literal.image.take 2)), 0, byteSize literal.image⟩]
  else []

def lexeme (literal : NumberLiteral) : Lexeme :=
  if literal.isReal then
    .real (String.ofList (literal.image.filter (· ≠ digitSeparator)))
  else
    .integer (String.ofList (literal.groups.flatMap DigitGroup.withoutSeparators)) literal.radix

/-- Read the number literal at the start of a text. -/
def read (text : List Char) : Reading :=
  let literal := ofText text
  { extra := literal.image.length - 1
    lexeme? := some literal.lexeme
    errors := literal.errors
    failed := !literal.errors.isEmpty }

end NumberLiteral

end Cadence
