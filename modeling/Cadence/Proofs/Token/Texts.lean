import Cadence.Proofs.Token.Positions

/-!
# Texts that literals stand for

In a string, a backslash in front of a character that has a meaning of its own makes it stand for
itself, and a line feed is written as an escape sequence. So every text can be written as a string.
In a verbatim string a backslash is one unless a backtick follows. So a text is written there with a
backslash in front of each backtick, unless it ends with a backslash: this one would escape the
delimiter.
-/
namespace Cadence

open Source (File FileName)
open Text (isBlank quotationMark)

namespace LiteralBody

/-- Put a text that takes `size` characters of source text in front. -/
def prepend (text : List Char) (size : Nat) (body : LiteralBody) : LiteralBody :=
  { body with content := text ++ body.content, size := size + body.size }

theorem prepend_nil (body : LiteralBody) : body.prepend [] 0 = body := by
  simp [prepend]

theorem cons_prepend (character : Char) (own : Nat) (text : List Char) (size : Nat)
    (body : LiteralBody) :
    (body.prepend text size).cons character own = body.prepend (character :: text) (own + size) := by
  simp [prepend, cons, Nat.add_assoc]

end LiteralBody

/-- A character as it is written in a string. -/
def writtenInString (character : Char) : List Char :=
  if character = '\\' then ['\\', '\\']
  else if character = quotationMark then ['\\', quotationMark]
  else if character = '\n' then ['\\', 'n']
  else [character]

/-- A character as it is written in a verbatim string. -/
def writtenVerbatim (character : Char) : List Char :=
  if character = backtick then ['\\', backtick] else [character]

/-- The text between quotation marks. -/
def stringLiteral (text : List Char) : List Char :=
  quotationMark :: (text.flatMap writtenInString ++ [quotationMark])

/-- The text between backticks. -/
def verbatimLiteral (text : List Char) : List Char :=
  backtick :: (text.flatMap writtenVerbatim ++ [backtick])

/-- What is escaped stands for the character itself, and there is nothing else to escape. -/
theorem stringBody_writtenInString (character : Char) (behind : List Char) :
    stringBody (writtenInString character ++ behind) =
      (stringBody behind).cons character (writtenInString character).length := by
  unfold writtenInString
  by_cases isEscape : character = '\\'
  · subst isEscape
    rfl
  by_cases isMark : character = quotationMark
  · subst isMark
    rfl
  by_cases isBreak : character = '\n'
  · subst isBreak
    rfl
  rw [if_neg isEscape, if_neg isMark, if_neg isBreak, List.singleton_append, stringBody.eq_def]
  simp only [if_neg isEscape, if_neg isMark, if_neg isBreak]
  rfl

theorem stringBody_written (text behind : List Char) :
    stringBody (text.flatMap writtenInString ++ behind) =
      (stringBody behind).prepend text (text.flatMap writtenInString).length := by
  induction text with
  | nil => exact (LiteralBody.prepend_nil _).symm
  | cons character rest ih =>
    rw [List.flatMap_cons, List.append_assoc, stringBody_writtenInString, ih,
      LiteralBody.cons_prepend, List.length_append]

/-- A backslash is one if no backtick comes next. -/
theorem verbatimBody_writtenVerbatim (character : Char) {behind : List Char}
    (apart : character = '\\' → behind.head? ≠ some backtick) :
    verbatimBody (writtenVerbatim character ++ behind) =
      (verbatimBody behind).cons character (writtenVerbatim character).length := by
  unfold writtenVerbatim
  by_cases isMark : character = backtick
  · subst isMark
    rfl
  rw [if_neg isMark, List.singleton_append, verbatimBody.eq_def]
  simp only [if_neg isMark]
  cases behind with
  | nil => rfl
  | cons next others =>
    have notEscaped : ¬ (character = '\\' ∧ next = backtick) := by
      rintro ⟨isEscape, rfl⟩
      exact apart isEscape rfl
    simp only [if_neg notEscaped]
    rfl

/-- What is written never starts with a backtick. -/
theorem head?_writtenVerbatim (character : Char) (behind : List Char) :
    (writtenVerbatim character ++ behind).head? ≠ some backtick := by
  unfold writtenVerbatim
  split
  · simp [backtick]
  next other => simpa using other

theorem verbatimBody_written {text behind : List Char}
    (apart : text.getLast? = some '\\' → behind.head? ≠ some backtick) :
    verbatimBody (text.flatMap writtenVerbatim ++ behind) =
      (verbatimBody behind).prepend text (text.flatMap writtenVerbatim).length := by
  induction text with
  | nil => exact (LiteralBody.prepend_nil _).symm
  | cons character rest ih =>
    have next : character = '\\' →
        (rest.flatMap writtenVerbatim ++ behind).head? ≠ some backtick := by
      intro isEscape
      cases rest with
      | nil => exact apart (by simp [isEscape])
      | cons other rest =>
        rw [List.flatMap_cons, List.append_assoc]
        exact head?_writtenVerbatim other _
    have later : rest.getLast? = some '\\' → behind.head? ≠ some backtick := by
      intro isLast
      apply apart
      rw [List.getLast?_cons, isLast]
      rfl
    rw [List.flatMap_cons, List.append_assoc, verbatimBody_writtenVerbatim character next,
      ih later, LiteralBody.cons_prepend, List.length_append]

/-- The inside of a verbatim string ends at its delimiter unless a backslash stands in front of it.
-/
theorem verbatimBody_closed_iff (text : List Char) :
    (verbatimBody (text.flatMap writtenVerbatim ++ [backtick])).ending = .closed ↔
      text.getLast? ≠ some '\\' := by
  constructor
  · rintro closed isLast
    obtain ⟨front, rfl⟩ := List.getLast?_eq_some_iff.mp isLast
    -- what the backslash escapes is the delimiter
    have escaped : (front ++ ['\\']).flatMap writtenVerbatim ++ [backtick] =
        front.flatMap writtenVerbatim ++ ['\\', backtick] := by
      simp [writtenVerbatim, backtick]
    rw [escaped, verbatimBody_written (by simp [backtick])] at closed
    simp [verbatimBody, LiteralBody.prepend, LiteralBody.cons, backtick] at closed
  · intro ends
    rw [verbatimBody_written (fun isLast => absurd isLast ends)]
    rfl

theorem LiteralBody.failed_reading_iff {text : List Char} {kind : LiteralKind} {body : LiteralBody} :
    (body.reading text kind).failed = false ↔ body.ending = .closed := by
  unfold reading
  cases body.ending <;> simp [Reading.token, Reading.fault]

/-- The delimiters of texts start nothing else. -/
theorem Reading.ofText_of_delimiter {first : Char} (isDelimiter : first ∈ [quotationMark, backtick])
    (rest : List Char) :
    ofText first rest =
      if first = quotationMark then readString (first :: rest)
      else readVerbatimString (first :: rest) := by
  have classes : ∀ other ∈ [quotationMark, backtick], isBlank other = false ∧
      isIdentifierStart other = false ∧ isSignStart other = false ∧ other.isDigit = false ∧
      singleMark? other = none ∧ other ≠ '/' ∧ other ≠ '.' ∧ other ≠ '-' ∧ other ≠ '_' :=
    List.all_iff_forall_prop.mp (by decide +kernel)
  obtain ⟨visible, noName, noSign, noDigit, noMark, noSlash, noDot, noMinus, noSeparator⟩ :=
    classes first isDelimiter
  have initialized := not_isPrefixOf_of_ne rest noMinus
  have known : first = quotationMark ∨ first = backtick := by simpa using isDelimiter
  rcases known with rfl | rfl <;>
    simp [ofText, visible, noName, noSign, noDigit, noMark, noSlash, noDot, noSeparator, initialized]

namespace Lexed

/-- The whole file is one text, and nothing is wrong with it. -/
def IsText (file : File) (text : List Char) : Prop :=
  ofFile file = {
    tokens := [⟨.text (String.ofList text), file.span, String.ofList file.content⟩,
      ⟨.endOfInput, .emptyAt file.span.stop, ""⟩]
    errors := []
    tainted := false }

/-- A literal that fills a file is its text if the last character closes it. -/
theorem isText_iff {first : Char} {inside text : List Char} {kind : LiteralKind} {body : LiteralBody}
    (isRead : Reading.ofText first inside = body.reading (first :: inside) kind)
    (whole : body.ending = .closed → body.content = text ∧ body.size = inside.length)
    (name : FileName) (start : Nat) :
    IsText ⟨name, first :: inside, start⟩ text ↔ body.ending = .closed := by
  constructor
  · intro isText
    have clean := congrArg tainted isText
    rw [ofFile, ofText_cons, isRead] at clean
    exact LiteralBody.failed_reading_iff.mp (Bool.or_eq_false_iff.mp clean).1
  · intro closed
    obtain ⟨rfl, size⟩ := whole closed
    have token : body.reading (first :: inside) kind = _ := LiteralBody.reading_of_closed closed
    rw [size] at token
    have isRead := isRead.trans token
    -- the reading takes everything, and so only the end of the input is left
    rw [IsText, ofFile, ofText_cons, isRead]
    simp [Reading.token, push, File.span, ofText]

end Lexed

/-- Every text has a string that is read as this text and nothing else, without an error. It also
has such a verbatim string, unless it ends with a backslash. -/
theorem literals_denote_every_text (name : FileName) (start : Nat) (text : List Char) :
    Lexed.IsText ⟨name, stringLiteral text, start⟩ text ∧
      (Lexed.IsText ⟨name, verbatimLiteral text, start⟩ text ↔ text.getLast? ≠ some '\\') := by
  constructor
  · have inside := stringBody_written text [quotationMark]
    rw [stringBody_quotationMark] at inside
    have isRead : Reading.ofText quotationMark (text.flatMap writtenInString ++ [quotationMark]) =
        readString _ := Reading.ofText_of_delimiter (by decide) _
    rw [readString, List.tail_cons, inside] at isRead
    apply (Lexed.isText_iff isRead _ name start).mpr rfl
    intro closed
    simp [LiteralBody.prepend]
  · rw [← verbatimBody_closed_iff]
    have isRead : Reading.ofText backtick (text.flatMap writtenVerbatim ++ [backtick]) =
        readVerbatimString _ := Reading.ofText_of_delimiter (by decide) _
    rw [readVerbatimString, List.tail_cons] at isRead
    apply Lexed.isText_iff isRead
    intro closed
    have ends := (verbatimBody_closed_iff text).mp closed
    rw [verbatimBody_written (fun isLast => absurd isLast ends)]
    simp [LiteralBody.prepend, verbatimBody]

end Cadence
