import Cadence.Proofs.Token.Signs

/-!
# Reading what is written piece by piece

Text that is put together from words and signs is read as these words and signs, if none of them
goes on with the next one: a word ends where no character of a name comes next, a sign where the
next character does not make it a longer sign. Marks of a single character and blanks end anywhere.
-/
namespace Cadence

open Source (File byteSize byteSize_append)
open Text (isBlank)

/-- The next character does not go on with a word. -/
def EndsWord (behind : List Char) : Prop :=
  ∀ next ∈ behind.head?, isIdentifierMiddle next = false

/-- The characters are a word. -/
structure IsWord (word : List Char) : Prop where
  starts : StartsWord word
  middle : ∀ character ∈ word.tail, isIdentifierMiddle character = true

/-- The name is a word that is neither reserved nor a type of the language. -/
structure IsIdentifier (name : String) : Prop where
  isWord : IsWord name.toList
  ofWord : Lexeme.ofWord name = .identifier name

theorem EndsWord.not_isDigit {behind : List Char} (ends : EndsWord behind) :
    ∀ next ∈ behind.head?, next.isDigit = false := by
  intro next isNext
  have other := ends next isNext
  cases isDigit : next.isDigit with
  | false => rfl
  | true => rw [isIdentifierMiddle_of_isDigit isDigit] at other; cases other

/-- A text that starts with a word starts with all the characters of names that follow. -/
theorem isWord_of_startsWord {first : Char} {rest : List Char} (starts : StartsWord (first :: rest)) :
    IsWord (first :: rest.takeWhile isIdentifierMiddle) where
  starts := by
    refine ⟨starts.1, fun number => starts.2 ?_⟩
    -- what starts a number still does with more behind it
    rcases number with isDigit | ⟨isSeparator, digit, others, run, isDigit⟩
    · exact .inl isDigit
    · obtain ⟨behind, split⟩ := run ▸ List.takeWhile_prefix isIdentifierMiddle
      exact .inr ⟨isSeparator, digit, others ++ behind, split.symm, isDigit⟩
  middle := List.all_eq_true.mp List.all_takeWhile

theorem Lexeme.eq_of_ofWord {word name : String} (same : ofWord word = .identifier name) :
    word = name := by
  unfold ofWord at same
  split at same
  · cases same
  · split at same
    · cases same
    · split at same <;> cases same
      rfl

theorem NumberLiteral.lexeme_ne_identifier (literal : NumberLiteral) (name : String) :
    literal.lexeme ≠ .identifier name := by
  unfold lexeme
  split <;> simp

/-- The types of the language start with a letter, and letters and digits follow. -/
theorem BuiltinType.isWord_name (type : BuiltinType) : IsWord type.name.toList := by
  have letters : ∀ character ∈ "abdefilnoprstuvz".toList, isIdentifierStart character = true ∧
      character ≠ '_' := List.all_iff_forall_prop.mp (by decide +kernel)
  have digits : ∀ character ∈ "0123468".toList, character.isDigit = true :=
    List.all_iff_forall_prop.mp (by decide)
  have known : ∃ first more, type.name.toList = first :: more ∧ first ∈ "abdefilnoprstuvz".toList ∧
      ∀ character ∈ more, character ∈ "abdefilnoprstuvz".toList ∨ character ∈ "0123468".toList := by
    cases type <;> exact ⟨_, _, rfl, by decide, List.all_iff_forall_prop.mp (by decide)⟩
  obtain ⟨first, more, split, isLetter, inside⟩ := known
  rw [split]
  obtain ⟨isName, notSeparator⟩ := letters first isLetter
  constructor
  · refine ⟨isName, fun number => ?_⟩
    rcases number with isDigit | ⟨isSeparator, -⟩
    · simp [not_isIdentifierStart_of_isDigit isDigit] at isName
    · exact notSeparator isSeparator
  · intro character member
    rcases inside character member with isLetter | isDigit
    · exact isIdentifierMiddle_of_start (letters character isLetter).1
    · exact isIdentifierMiddle_of_isDigit (digits character isDigit)

theorem BuiltinType.ofWord_name (type : BuiltinType) :
    Lexeme.ofWord type.name = .builtinType type := by
  cases type <;> decide +kernel

/-- The marks of a single character. -/
def singleMarks : List Char := ['(', ')', '[', ']', '\x7b', '\x7d', ',', ':', ';']

theorem mem_singleMarks {character : Char} {mark : Punctuation}
    (known : singleMark? character = some mark) : character ∈ singleMarks := by
  unfold singleMark? at known
  split at known <;> simp [singleMarks] at known ⊢

/-- No name goes on with them. -/
theorem not_isIdentifierMiddle_of_singleMark {character : Char} {mark : Punctuation}
    (known : singleMark? character = some mark) : isIdentifierMiddle character = false := by
  have classes : ∀ other ∈ singleMarks, isIdentifierMiddle other = false :=
    List.all_iff_forall_prop.mp (by decide +kernel)
  exact classes character (mem_singleMarks known)

/-- Words end in front of them. -/
theorem endsWord_of_singleMark {character : Char} {mark : Punctuation}
    (known : singleMark? character = some mark) (rest : List Char) :
    EndsWord (character :: rest) := by
  intro next isNext
  obtain rfl := Option.some.inj isNext
  exact not_isIdentifierMiddle_of_singleMark known

/-- They are neither white space nor the start of anything longer. -/
theorem Reading.ofText_of_singleMark {character : Char} {mark : Punctuation}
    (known : singleMark? character = some mark) (rest : List Char) :
    ofText character rest = .mark 0 mark := by
  have classes : ∀ other ∈ singleMarks, isBlank other = false ∧ isSignStart other = false ∧
      other.isDigit = false ∧ other ≠ '/' ∧ other ≠ '.' ∧ other ≠ '-' ∧ other ≠ '_' :=
    List.all_iff_forall_prop.mp (by decide +kernel)
  obtain ⟨visible, noSign, noDigit, noSlash, noDot, noMinus, noSeparator⟩ :=
    classes character (mem_singleMarks known)
  have noName : isIdentifierStart character = false := by
    by_contra starts
    have middle := isIdentifierMiddle_of_start (Bool.not_eq_false _ ▸ starts)
    simp [not_isIdentifierMiddle_of_singleMark known] at middle
  have initialized := not_isPrefixOf_of_ne rest noMinus
  simp [ofText, visible, noName, noSign, noDigit, noSlash, noDot, noSeparator, initialized, known]

namespace Lexed

/-- In front of what comes behind it, the text is read as the lexemes, and there is no fault. -/
structure Reads (text behind : List Char) (lexemes : List Lexeme) : Prop where
  tokens (start : Nat) : (ofText start (text ++ behind)).tokens.map Token.lexeme =
    lexemes ++ (ofText (start + byteSize text) behind).tokens.map Token.lexeme
  errors (start : Nat) : (ofText start (text ++ behind)).errors =
    (ofText (start + byteSize text) behind).errors

namespace Reads

variable {text behind : List Char} {lexemes : List Lexeme}

theorem nil (behind : List Char) : Reads [] behind [] := by
  constructor <;> simp

/-- What is read in front of something is read first. -/
theorem append {left right : List Char} {others : List Lexeme}
    (first : Reads left (right ++ behind) lexemes) (second : Reads right behind others) :
    Reads (left ++ right) behind (lexemes ++ others) := by
  constructor
  · intro start
    rw [List.append_assoc, first.tokens, second.tokens, byteSize_append, List.append_assoc,
      Nat.add_assoc]
  · intro start
    rw [List.append_assoc, first.errors, second.errors, byteSize_append, Nat.add_assoc]

/-- What a single reading takes. -/
theorem of_reading {first : Char} {more : List Char} {reading : Reading}
    (isRead : Reading.ofText first (more ++ behind) = reading) (size : reading.extra = more.length)
    (clean : reading.errors = []) : Reads (first :: more) behind reading.lexeme?.toList := by
  have taken : first :: (more ++ behind).take reading.extra = first :: more := by
    rw [size, List.take_left]
  have left : (more ++ behind).drop reading.extra = behind := by rw [size, List.drop_left]
  constructor
  · intro start
    rw [List.cons_append, ofText_cons, tokens_push, isRead, taken, left, List.map_append]
    simp [Reading.tokensAt, Function.comp_def]
  · intro start
    rw [List.cons_append, ofText_cons, errors_push, isRead, taken, left]
    simp [Reading.errorsAt, clean]

theorem of_token {first : Char} {more : List Char} {lexeme : Lexeme}
    (isRead : Reading.ofText first (more ++ behind) = .token more.length lexeme) :
    Reads (first :: more) behind [lexeme] :=
  of_reading isRead rfl rfl

theorem blank (reads : Reads text behind lexemes) : Reads (' ' :: text) behind lexemes := by
  have isRead : Reading.ofText ' ' ([] ++ (text ++ behind)) = .skip 0 := rfl
  have single : Reads [' '] (text ++ behind) [] := of_reading isRead rfl rfl
  exact single.append reads

theorem mark {character : Char} {mark : Punctuation} (known : singleMark? character = some mark)
    (reads : Reads text behind lexemes) :
    Reads (character :: text) behind (.punctuation mark :: lexemes) := by
  have single : Reads [character] (text ++ behind) [.punctuation mark] :=
    of_token (Reading.ofText_of_singleMark known _)
  exact single.append reads

theorem varargs (behind : List Char) :
    Reads ['.', '.', '.'] behind [.punctuation .varargs] := by
  have visible : isBlank '.' = false := by decide
  apply of_token
  simp [Reading.ofText, visible, readDots, Reading.mark]

/-- A sign is read if no longer one is there. -/
theorem sign {first : Char} {more : List Char} {lexeme : Lexeme}
    (isSign : (first :: more, lexeme) ∈ signs) (starts : StartsSign (first :: (more ++ behind)))
    (ends : ∀ other ∈ signs, first :: more <+: other.1 → other.1 <+: first :: (more ++ behind) →
      other = (first :: more, lexeme)) :
    Reads (first :: more) behind [lexeme] := by
  have begins : first :: more <+: first :: (more ++ behind) := List.prefix_append _ behind
  obtain ⟨longest, read, isLongest, isToken⟩ := exists_of_readSign (more ++ behind) starts.1
  -- the sign that is read is not shorter, and if it is longer it goes on with what is behind
  have same : (longest, read) = (first :: more, lexeme) := by
    by_contra differs
    have longer := isLongest.longest _ isSign begins (Ne.symm differs)
    have goesOn := List.prefix_of_prefix_length_le begins isLongest.starts (Nat.le_of_lt longer)
    exact differs (ends _ isLongest.isSign goesOn isLongest.starts)
  obtain ⟨rfl, rfl⟩ := Prod.mk.inj same
  exact of_token ((Reading.ofText_of_startsSign starts).trans isToken)

/-- The mark of a pointer, where no assignment follows. -/
theorem asterisk (noAssign : ∀ next ∈ (text ++ behind).head?, next ≠ '=')
    (reads : Reads text behind lexemes) :
    Reads ('*' :: text) behind (.operator .asterisk :: lexemes) := by
  have known : ∀ other ∈ signs, ['*'].isPrefixOf other.1 = true →
      other = (['*'], .operator .asterisk) ∨ other.1 = ['*', '='] := by decide +kernel
  have starts : StartsSign ('*' :: (text ++ behind)) :=
    ⟨by decide, by simp [opensComment], by simp⟩
  have single : Reads ['*'] (text ++ behind) [.operator .asterisk] := by
    refine sign (by decide +kernel) starts fun other isSign longer begins => ?_
    rcases known other isSign (List.isPrefixOf_iff_prefix.mpr longer) with same | same
    · exact same
    · rw [same, List.cons_prefix_cons] at begins
      obtain ⟨rest, split⟩ := begins.2
      have next : '=' ∈ (text ++ behind).head? := by
        rw [← List.nil_append (text ++ behind), ← split]
        rfl
      exact absurd rfl (noAssign '=' next)
  exact single.append reads

/-- No sign starts with an arrow but the arrow itself. -/
theorem arrow (reads : Reads text behind lexemes) :
    Reads ('-' :: '>' :: text) behind (.punctuation .thinArrowRight :: lexemes) := by
  have known : ∀ other ∈ signs, ['-', '>'].isPrefixOf other.1 = true →
      other = (['-', '>'], .punctuation .thinArrowRight) := by decide +kernel
  have starts : StartsSign ('-' :: (['>'] ++ (text ++ behind))) :=
    ⟨by decide, by simp [opensComment], by simp⟩
  have single : Reads ['-', '>'] (text ++ behind) [.punctuation .thinArrowRight] :=
    sign (by decide +kernel) starts fun other isSign longer _ =>
      known other isSign (List.isPrefixOf_iff_prefix.mpr longer)
  exact single.append reads

/-- A word is read up to where it ends. -/
theorem word {word : List Char} (isWord : IsWord word) (ends : EndsWord behind) :
    Reads word behind [.ofWord (String.ofList word)] := by
  cases word with
  | nil => exact isWord.starts.elim
  | cons first more =>
    have starts : StartsWord (first :: (more ++ behind)) := by
      refine ⟨isWord.starts.1, fun number => isWord.starts.2 ?_⟩
      rcases number with isDigit | ⟨isSeparator, digit, rest, split, isDigit⟩
      · exact .inl isDigit
      · cases more with
        | nil =>
          -- the digit would be a character of names behind the word
          obtain rfl : behind = digit :: rest := split
          simp [ends.not_isDigit digit rfl] at isDigit
        | cons next more =>
          obtain ⟨rfl, -⟩ := List.cons.inj split
          exact .inr ⟨isSeparator, next, more, rfl, isDigit⟩
    have taken : (more ++ behind).takeWhile isIdentifierMiddle = more :=
      takeWhile_append_stop isWord.middle ends
    apply of_token
    rw [Reading.ofText_of_startsWord starts, readWord, List.tail_cons, taken]
    rfl

end Reads

/-- A name that is found in some text is a word, and so it is read wherever it is written. -/
theorem isIdentifier_of_mem {file : File} {token : Token} (member : token ∈ (ofFile file).tokens)
    {name : String} (isIdentifier : token.lexeme = .identifier name) : IsIdentifier name := by
  obtain ⟨front, first, rest, -, found⟩ :=
    (exists_comesTo file.start file.content).1 token member (by rw [isIdentifier]; simp)
  obtain ⟨lexeme, isLexeme, rfl⟩ := List.mem_map.mp found
  obtain rfl : lexeme = .identifier name := isIdentifier
  have isLexeme := Option.mem_toList.mp isLexeme
  rcases Reading.starts_of_isNumberOrWord isLexeme rfl with number | starts
  · -- no number is a name
    rw [Reading.ofText_of_startsNumber number] at isLexeme
    exact absurd (Option.some.inj isLexeme) (NumberLiteral.lexeme_ne_identifier _ name)
  · rw [Reading.ofText_of_startsWord starts] at isLexeme
    have known := Option.some.inj isLexeme
    obtain rfl := Lexeme.eq_of_ofWord known
    refine ⟨?_, known⟩
    rw [String.toList_ofList]
    exact isWord_of_startsWord starts

end Lexed

end Cadence
