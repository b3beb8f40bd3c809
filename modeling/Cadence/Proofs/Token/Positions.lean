import Cadence.Proofs.Token.Faults
import Cadence.Proofs.Token.Separation
import Mathlib.Data.Bool.AllAny

/-!
# The places that reading comes to

A text is read from one place to the next. What stands there decides which reader takes it, and the
tokens and the faults that are found from there on are those of the rest of the text. So all that is
reported under the characters a reader takes is what this reader says.
-/
namespace Cadence

open Source (File Span byteSize byteSize_append)
open Text (CodeRange apostrophe inRanges isBlank quotationMark)

/-- A number starts with a digit, or with a separator in front of a digit. -/
def StartsNumber : List Char → Prop
  | [] => False
  | first :: rest => first.isDigit = true ∨
      first = digitSeparator ∧ ∃ digit behind, rest = digit :: behind ∧ digit.isDigit = true

/-- A word starts with a character that names start with, unless a number does. -/
def StartsWord : List Char → Prop
  | [] => False
  | first :: rest => isIdentifierStart first = true ∧ ¬ StartsNumber (first :: rest)

/-- A sign starts with one of its characters, unless a comment or the mark of what is left
uninitialized does. -/
def StartsSign : List Char → Prop
  | [] => False
  | first :: rest => isSignStart first = true ∧ opensComment (first :: rest) = false ∧
      ¬ ['-', '-', '-'] <+: first :: rest

/-- Characters of one of two classes are not of the other. -/
theorem not_isIdentifierStart_of_isDigit {character : Char} (isDigit : character.isDigit = true) :
    isIdentifierStart character = false := by
  have inside : inRanges [⟨0x30, 0x39⟩] character = true := by
    simpa [inRanges, CodeRange.contains, Char.isDigit, UInt32.le_iff_toNat_le] using isDigit
  have letter : Text.isLetter character = false := not_inRanges_of_apart (by decide +kernel) inside
  have other : character ≠ '_' := by
    rintro rfl
    exact absurd isDigit (by decide)
  simp [isIdentifierStart, letter, other]

theorem isIdentifierMiddle_of_isDigit {character : Char} (isDigit : character.isDigit = true) :
    isIdentifierMiddle character = true := by
  -- digits are ASCII characters, so that the ranges of names are searched for these only
  have all : ∀ code < 128, (Char.ofNat code).isDigit = true →
      isIdentifierMiddle (Char.ofNat code) = true := by decide +kernel
  have small : character.toNat < 128 := by
    simp only [Char.isDigit, Bool.and_eq_true, decide_eq_true_eq, UInt32.le_iff_toNat_le] at isDigit
    exact Nat.lt_of_le_of_lt isDigit.2 (by decide)
  have known := all character.toNat small
  rw [Char.ofNat_toNat] at known
  exact known isDigit

theorem not_isSignStart_of_isDigit {character : Char} (isDigit : character.isDigit = true) :
    isSignStart character = false := by
  have apart : ∀ sign ∈ ['+', '-', '*', '/', '%', '\\', '&', '|', '~', '<', '>', '=', '!', '^'],
      sign.isDigit = false := List.all_iff_forall_prop.mp (by decide)
  refine Bool.eq_false_iff.mpr fun starts => ?_
  have := apart character (List.contains_iff_mem.mp starts)
  simp [isDigit] at this

/-- What a sign starts with is visible, and no name starts with it. -/
theorem isSignStart_class {character : Char} (starts : isSignStart character = true) :
    isBlank character = false ∧ character ≠ '.' ∧ character ≠ '_' ∧
      isIdentifierStart character = false := by
  have classes : ∀ sign ∈ ['+', '-', '*', '/', '%', '\\', '&', '|', '~', '<', '>', '=', '!', '^'],
      isBlank sign = false ∧ sign ≠ '.' ∧ sign ≠ '_' ∧ isIdentifierStart sign = false :=
    List.all_iff_forall_prop.mp (by decide +kernel)
  exact classes character (List.contains_iff_mem.mp starts)

theorem startsNumber_iff_of_separator {first : Char} {rest : List Char} (isSeparator : first = '_') :
    StartsNumber (first :: rest) ↔ secondIs Char.isDigit (first :: rest) = true := by
  subst isSeparator
  have other : ¬ '_'.isDigit = true := by decide
  simp [StartsNumber, other, digitSeparator, secondIs_eq_true_iff]

theorem opensComment_eq_false_iff (first : Char) (rest : List Char) :
    opensComment (first :: rest) = false ↔
      ¬ (first = '/' ∧ secondIs (· = '#') (first :: rest) = true) ∧
        ¬ (first = '/' ∧ secondIs (· = '*') (first :: rest) = true) := by
  rw [opensComment_eq]
  by_cases slash : first = '/'
  · cases rest <;> simp [slash, secondIs]
  · simp [slash]

namespace Reading

/-- The readers, each with what a text starts with that it is chosen for. -/
inductive IsChosen (first : Char) (rest : List Char) : Reading → Prop where
  | blank (blank : isBlank first = true) : IsChosen first rest (.skip 0)
  | lineComment : IsChosen first rest (readLineComment (first :: rest))
  | blockComment : IsChosen first rest (readBlockComment (first :: rest))
  | dots (isDot : first = '.') : IsChosen first rest (readDots (first :: rest))
  | uninitialized (starts : ['-', '-', '-'] <+: first :: rest) :
      IsChosen first rest (.mark 2 .uninitialized)
  | number (starts : StartsNumber (first :: rest)) :
      IsChosen first rest (NumberLiteral.read (first :: rest))
  | word (starts : StartsWord (first :: rest)) : IsChosen first rest (readWord (first :: rest))
  | sign (starts : StartsSign (first :: rest)) : IsChosen first rest (readSign (first :: rest))
  | mark {mark : Punctuation} (known : singleMark? first = some mark) :
      IsChosen first rest (.mark 0 mark)
  | string : IsChosen first rest (readString (first :: rest))
  | verbatimString : IsChosen first rest (readVerbatimString (first :: rest))
  | character : IsChosen first rest (readCharacter (first :: rest))
  | directive : IsChosen first rest (readDirective (first :: rest))
  | stray : IsChosen first rest (.fault (first :: rest) 0 (.strayCharacter first))

theorem isChosen_ite {first : Char} {rest : List Char} {condition : Prop} [Decidable condition]
    {left right : Reading} (chosen : condition → IsChosen first rest left)
    (other : ¬ condition → IsChosen first rest right) :
    IsChosen first rest (if condition then left else right) := by
  split
  next holds => exact chosen holds
  next fails => exact other fails

/-- Each text is read by one of the readers. -/
theorem isChosen_ofText (first : Char) (rest : List Char) :
    IsChosen first rest (ofText first rest) := by
  unfold ofText
  -- what one reader refuses is known to those that are tried behind it
  refine isChosen_ite .blank fun _ => isChosen_ite (fun _ => .lineComment) fun noLine =>
    isChosen_ite (fun _ => .blockComment) fun noBlock => isChosen_ite .dots fun _ => ?_
  have noComment := (opensComment_eq_false_iff first rest).mpr ⟨noLine, noBlock⟩
  refine isChosen_ite (fun starts => .uninitialized (List.isPrefixOf_iff_prefix.mp starts))
    fun initialized => isChosen_ite (fun separated => ?_) fun notSeparated =>
      isChosen_ite (fun starts => ?_) fun _ => isChosen_ite (fun starts => ?_) fun _ =>
        isChosen_ite (fun isDigit => .number (.inl isDigit)) fun _ => ?_
  · exact .number ((startsNumber_iff_of_separator separated.1).mpr separated.2)
  · refine .word ⟨starts, fun number => ?_⟩
    rcases number with isDigit | ⟨isSeparator, next⟩
    · simp [not_isIdentifierStart_of_isDigit isDigit] at starts
    · exact notSeparated ⟨isSeparator, secondIs_eq_true_iff.mpr next⟩
  · exact .sign ⟨starts, noComment, fun begins =>
      initialized (List.isPrefixOf_iff_prefix.mpr begins)⟩
  · split
    next mark known => exact .mark known
    next =>
      exact isChosen_ite (fun _ => .string) fun _ => isChosen_ite (fun _ => .verbatimString) fun _ =>
        isChosen_ite (fun _ => .character) fun _ => isChosen_ite (fun _ => .directive)
          fun _ => .stray

theorem not_isPrefixOf_of_ne {first : Char} (rest : List Char) (other : first ≠ '-') :
    ¬ ['-', '-', '-'].isPrefixOf (first :: rest) = true := by
  simp [List.isPrefixOf, Ne.symm other]

theorem ofText_of_startsNumber {first : Char} {rest : List Char}
    (starts : StartsNumber (first :: rest)) :
    ofText first rest = NumberLiteral.read (first :: rest) := by
  rcases starts with isDigit | ⟨rfl, next⟩
  · have ne (mark : Char) (other : mark.isDigit = false) : first ≠ mark := by
      rintro rfl
      simp [isDigit] at other
    have visible : isBlank first = false := Bool.eq_false_iff.mpr fun blank => by
      simp [not_isDigit_of_isBlank blank] at isDigit
    have initialized := not_isPrefixOf_of_ne rest (ne '-' (by decide))
    simp [ofText, visible, ne '/' (by decide), ne '.' (by decide), ne '_' (by decide), initialized,
      not_isIdentifierStart_of_isDigit isDigit, not_isSignStart_of_isDigit isDigit, isDigit]
  · have visible : isBlank digitSeparator = false := by decide
    have initialized := not_isPrefixOf_of_ne rest (show digitSeparator ≠ '-' by decide)
    have number : secondIs Char.isDigit (digitSeparator :: rest) = true :=
      secondIs_eq_true_iff.mpr next
    simp only [ofText, visible, initialized, number, if_neg (show ¬ digitSeparator = '.' by decide)]
    simp [digitSeparator]

theorem ofText_of_startsSign {first : Char} {rest : List Char}
    (starts : StartsSign (first :: rest)) : ofText first rest = readSign (first :: rest) := by
  obtain ⟨isSign, noComment, initialized⟩ := starts
  obtain ⟨visible, notDot, notSeparator, noName⟩ := isSignStart_class isSign
  obtain ⟨noLine, noBlock⟩ := (opensComment_eq_false_iff first rest).mp noComment
  rw [← List.isPrefixOf_iff_prefix] at initialized
  simp [ofText, visible, noLine, noBlock, notDot, notSeparator, noName, initialized, isSign]

theorem ofText_of_startsWord {first : Char} {rest : List Char}
    (starts : StartsWord (first :: rest)) : ofText first rest = readWord (first :: rest) := by
  obtain ⟨isName, notNumber⟩ := starts
  have ne (mark : Char) (other : isIdentifierStart mark = false) : first ≠ mark := by
    rintro rfl
    simp [isName] at other
  have visible : isBlank first = false := Bool.eq_false_iff.mpr fun blank => by
    simp [not_isIdentifierStart_of_isBlank blank] at isName
  have initialized := not_isPrefixOf_of_ne rest (ne '-' (by decide +kernel))
  have notSeparated : ¬ (first = '_' ∧ secondIs Char.isDigit (first :: rest) = true) :=
    fun both => notNumber ((startsNumber_iff_of_separator both.1).mpr both.2)
  simp [ofText, visible, ne '/' (by decide +kernel), ne '.' (by decide +kernel), initialized,
    notSeparated, isName]

end Reading

/-- The token is a number, or a word that is not the underscore. -/
def Lexeme.isNumberOrWord : Lexeme → Bool
  | identifier _ | keyword _ | builtinType _ | integer _ _ | real _ => true
  | _ => false

theorem lexeme_readSign {text : List Char} {lexeme : Lexeme}
    (found : (readSign text).lexeme? = some lexeme) : lexeme.isNumberOrWord = false := by
  have known : (signs.all fun sign => !sign.2.isNumberOrWord) = true := by decide +kernel
  unfold readSign at found
  dsimp only at found
  split at found
  next candidate _ same =>
    obtain ⟨whole, isSign⟩ := mem_munch (List.mem_of_find?_eq_some same)
    obtain rfl := Option.some.inj found
    simpa using List.all_eq_true.mp known _ isSign
  next => cases found

theorem LiteralBody.lexeme_reading {text : List Char} {kind : LiteralKind} {body : LiteralBody}
    {lexeme : Lexeme} (found : (body.reading text kind).lexeme? = some lexeme) :
    lexeme.isNumberOrWord = false := by
  by_cases closed : body.ending = .closed
  · rw [reading_of_closed closed] at found
    obtain rfl := Option.some.inj found
    rfl
  · rw [reading_of_open closed] at found
    cases found

theorem lexeme_closeCharacter {text : List Char} {extra : Nat} {character : Char} {lexeme : Lexeme}
    (found : (closeCharacter text extra character).lexeme? = some lexeme) :
    lexeme.isNumberOrWord = false := by
  unfold closeCharacter at found
  split at found
  · cases found
  · split at found
    · obtain rfl := Option.some.inj found
      rfl
    · cases found

theorem lexeme_readCharacter {text : List Char} {lexeme : Lexeme}
    (found : (readCharacter text).lexeme? = some lexeme) : lexeme.isNumberOrWord = false := by
  unfold readCharacter at found
  split at found
  · cases found
  · split at found
    · split at found
      · cases found
      · exact lexeme_closeCharacter found
    · split at found
      · cases found
      · split at found
        · cases found
        · exact lexeme_closeCharacter found

/-- Numbers and words are read by the readers of numbers and of words. -/
theorem Reading.starts_of_isNumberOrWord {first : Char} {rest : List Char} {lexeme : Lexeme}
    (found : (ofText first rest).lexeme? = some lexeme) (kind : lexeme.isNumberOrWord = true) :
    StartsNumber (first :: rest) ∨ StartsWord (first :: rest) := by
  by_contra neither
  rw [not_or] at neither
  -- none of the other readers makes a token of this kind
  suffices lexeme.isNumberOrWord = false by simp [kind] at this
  have chosen := isChosen_ofText first rest
  generalize ofText first rest = reading at chosen found
  cases chosen with
  | blank => cases found
  | lineComment =>
    rw [lexeme_readLineComment] at found
    cases found
  | blockComment =>
    rw [lexeme_readBlockComment] at found
    cases found
  | dots =>
    unfold readDots at found
    split at found
    all_goals
      obtain rfl := Option.some.inj found
      rfl
  | uninitialized =>
    obtain rfl := Option.some.inj found
    rfl
  | number starts => exact absurd starts neither.1
  | word starts => exact absurd starts neither.2
  | sign => exact lexeme_readSign found
  | mark =>
    obtain rfl := Option.some.inj found
    rfl
  | string => exact LiteralBody.lexeme_reading found
  | verbatimString => exact LiteralBody.lexeme_reading found
  | character => exact lexeme_readCharacter found
  | directive =>
    obtain rfl := Option.some.inj found
    rfl
  | stray => cases found

namespace Lexed

/-- Reading a text comes to the place where `behind` is left of it, with `front` in front. -/
inductive ComesTo (text : List Char) : List Char → List Char → Prop where
  | start : ComesTo text [] text
  | next {front rest : List Char} {first : Char} (here : ComesTo text front (first :: rest)) :
      ComesTo text (front ++ first :: rest.take (Reading.ofText first rest).extra)
        (rest.drop (Reading.ofText first rest).extra)

/-- What comes behind the first reading. -/
theorem ComesTo.later {first : Char} {rest front behind : List Char}
    (later : ComesTo (rest.drop (Reading.ofText first rest).extra) front behind) :
    ComesTo (first :: rest) (first :: rest.take (Reading.ofText first rest).extra ++ front)
      behind := by
  induction later with
  | start => simpa using (ComesTo.start : ComesTo (first :: rest) [] _).next
  | next _ ih => simpa using ih.next

/-- The tokens that start in a span. -/
def tokensIn (lexed : Lexed) (span : Span) : List Token :=
  lexed.tokens.filter fun token => span.start ≤ token.span.start ∧ token.span.start < span.stop

theorem mem_tokensIn_iff {lexed : Lexed} {span : Span} {token : Token} :
    token ∈ lexed.tokensIn span ↔
      token ∈ lexed.tokens ∧ span.start ≤ token.span.start ∧ token.span.start < span.stop := by
  simp [tokensIn]

/-- The faults that start in a span. -/
def errorsIn (lexed : Lexed) (span : Span) : List LexError :=
  lexed.errors.filter fun error => span.start ≤ error.span.start ∧ error.span.start < span.stop

end Lexed

/-- The span of a part of a text that starts at some place. -/
def spanOf (start : Nat) (part : List Char) : Span := ⟨start, start + byteSize part⟩

/-- The token of a reading at some place, if there is one. -/
def Reading.tokensAt (start : Nat) (taken : List Char) (reading : Reading) : List Token :=
  reading.lexeme?.toList.map fun lexeme => ⟨lexeme, spanOf start taken, String.ofList taken⟩

/-- The faults of a reading at some place. -/
def Reading.errorsAt (start : Nat) (reading : Reading) : List LexError :=
  reading.errors.map fun error => { error with span := error.span.shift start }

namespace Lexed

theorem tokens_push (start : Nat) (taken : List Char) (reading : Reading) (lexed : Lexed) :
    (push start taken reading lexed).tokens = reading.tokensAt start taken ++ lexed.tokens := by
  unfold push Reading.tokensAt spanOf
  dsimp only
  split
  next lexeme found => simp [found]
  next absent => simp [absent]

theorem errors_push (start : Nat) (taken : List Char) (reading : Reading) (lexed : Lexed) :
    (push start taken reading lexed).errors = reading.errorsAt start ++ lexed.errors := rfl

theorem ofText_cons (start : Nat) (first : Char) (rest : List Char) :
    ofText start (first :: rest) =
      (ofText (start + byteSize (first :: rest.take (Reading.ofText first rest).extra))
        (rest.drop (Reading.ofText first rest).extra)).push start
          (first :: rest.take (Reading.ofText first rest).extra) (Reading.ofText first rest) := by
  rw [ofText]

/-- A reading finds its token and its faults under what it takes. -/
theorem starts_of_reading (start : Nat) (first : Char) (rest : List Char) :
    (∀ token ∈ (Reading.ofText first rest).tokensAt start
        (first :: rest.take (Reading.ofText first rest).extra), token.span.start = start) ∧
      ∀ error ∈ (Reading.ofText first rest).errorsAt start, start ≤ error.span.start ∧
        error.span.start <
          start + byteSize (first :: rest.take (Reading.ofText first rest).extra) := by
  constructor
  · simp [Reading.tokensAt, spanOf]
  · refine List.forall_mem_map.mpr fun error member => ?_
    have under := (Reading.locates_ofText first rest).under error member
    simpa using (under.shift start).bounds

/-- The tokens and the faults of a text from its start to a place that reading comes to. -/
structure Divides (start : Nat) (text front behind : List Char) (tokens : List Token)
    (errors : List LexError) : Prop where
  tokens_eq : (ofText start text).tokens =
    tokens ++ (ofText (start + byteSize front) behind).tokens
  errors_eq : (ofText start text).errors =
    errors ++ (ofText (start + byteSize front) behind).errors
  tokens_lt : ∀ token ∈ tokens, token.span.start < start + byteSize front
  errors_lt : ∀ error ∈ errors, error.span.start < start + byteSize front

variable {text front behind : List Char}

theorem ComesTo.append_eq (comes : ComesTo text front behind) : front ++ behind = text := by
  induction comes with
  | start => rfl
  | next _ ih =>
    rw [← ih, List.append_assoc, List.cons_append, List.take_append_drop]

/-- Reading a text is reading a part of it, and then the rest. -/
theorem ComesTo.exists_divides (comes : ComesTo text front behind) (start : Nat) :
    ∃ tokens errors, Divides start text front behind tokens errors := by
  induction comes with
  | start => exact ⟨[], [], by simp, by simp, by simp, by simp⟩
  | @next front rest first _ ih =>
    obtain ⟨tokens, errors, divides⟩ := ih
    obtain ⟨tokensHere, errorsHere⟩ := starts_of_reading (start + byteSize front) first rest
    -- what is found at this place comes behind all that was found up to it
    have size := Source.byteSize_pos
      (List.cons_ne_nil first (rest.take (Reading.ofText first rest).extra))
    refine ⟨tokens ++ (Reading.ofText first rest).tokensAt (start + byteSize front)
        (first :: rest.take (Reading.ofText first rest).extra),
      errors ++ (Reading.ofText first rest).errorsAt (start + byteSize front), ?_, ?_, ?_, ?_⟩
    · rw [divides.tokens_eq, ofText_cons, tokens_push, byteSize_append, Nat.add_assoc,
        List.append_assoc]
    · rw [divides.errors_eq, ofText_cons, errors_push, byteSize_append, Nat.add_assoc,
        List.append_assoc]
    · rw [byteSize_append]
      refine List.forall_mem_append.mpr ⟨fun token member => ?_, fun token member => ?_⟩
      · have := divides.tokens_lt token member
        omega
      · have := tokensHere token member
        omega
    · rw [byteSize_append]
      refine List.forall_mem_append.mpr ⟨fun error member => ?_, fun error member => ?_⟩
      · have := divides.errors_lt error member
        omega
      · have := errorsHere error member
        omega

/-- Of items that lie in front of, within and behind a range, those within are kept. -/
theorem filter_append_within {α : Type} {place : α → Nat} {start stop : Nat}
    {left middle right : List α} (before : ∀ item ∈ left, place item < start)
    (inside : ∀ item ∈ middle, start ≤ place item ∧ place item < stop)
    (after : ∀ item ∈ right, stop ≤ place item) :
    (left ++ (middle ++ right)).filter (fun item => start ≤ place item ∧ place item < stop) =
      middle := by
  have noneBefore : left.filter (fun item => start ≤ place item ∧ place item < stop) = [] :=
    List.filter_eq_nil_iff.mpr fun item member within =>
      Nat.not_le_of_lt (before item member) (of_decide_eq_true within).1
  have noneAfter : right.filter (fun item => start ≤ place item ∧ place item < stop) = [] :=
    List.filter_eq_nil_iff.mpr fun item member within =>
      Nat.not_lt_of_le (after item member) (of_decide_eq_true within).2
  have all : middle.filter (fun item => start ≤ place item ∧ place item < stop) = middle :=
    List.filter_eq_self.mpr fun item member => decide_eq_true (inside item member)
  rw [List.filter_append, List.filter_append, noneBefore, all, noneAfter, List.nil_append,
    List.append_nil]

/-- All that is found under what a reading takes is what the reading says, and reading goes on
behind it. -/
theorem ComesTo.found {first : Char} {more after : List Char} {reading : Reading}
    (comes : ComesTo text front (first :: (more ++ after)))
    (isRead : Reading.ofText first (more ++ after) = reading) (size : reading.extra = more.length)
    (start : Nat) :
    ComesTo text (front ++ first :: more) after ∧
      (ofText start text).tokensIn (spanOf (start + byteSize front) (first :: more)) =
        reading.tokensAt (start + byteSize front) (first :: more) ∧
      (ofText start text).errorsIn (spanOf (start + byteSize front) (first :: more)) =
        reading.errorsAt (start + byteSize front) := by
  have taken : first :: (more ++ after).take (Reading.ofText first (more ++ after)).extra =
      first :: more := by rw [isRead, size, List.take_left]
  have left : (more ++ after).drop (Reading.ofText first (more ++ after)).extra = after := by
    rw [isRead, size, List.drop_left]
  obtain ⟨tokens, errors, divides⟩ := comes.exists_divides start
  obtain ⟨tokensHere, errorsHere⟩ :=
    starts_of_reading (start + byteSize front) first (more ++ after)
  have behind := divides.tokens_eq
  have errorsBehind := divides.errors_eq
  rw [ofText_cons, tokens_push] at behind
  rw [ofText_cons, errors_push] at errorsBehind
  rw [taken, left, isRead] at behind
  rw [taken, left, isRead] at errorsBehind
  rw [taken, isRead] at tokensHere errorsHere
  have visible := Source.byteSize_pos (List.cons_ne_nil first more)
  -- what was found earlier starts in front of the span, and what is found later starts behind it
  dsimp only [spanOf]
  refine ⟨?_, ?_, ?_⟩
  · have next := comes.next
    rwa [taken, left] at next
  · rw [tokensIn, behind]
    refine filter_append_within divides.tokens_lt (fun token member => ?_)
      (laidOut_ofText _ _).pairwise.1
    rw [tokensHere token member]
    exact ⟨Nat.le_refl _, Nat.lt_add_of_pos_right visible⟩
  · rw [errorsIn, errorsBehind]
    exact filter_append_within divides.errors_lt errorsHere fun error member =>
      ((errors_ofText _ _).1 error member).bounds.1

/-- Each token stands for what a reading takes, and each fault is that of a reading. -/
theorem exists_comesTo (start : Nat) (text : List Char) :
    (∀ token ∈ (ofText start text).tokens, token.lexeme ≠ .endOfInput →
      ∃ front first rest, ComesTo text front (first :: rest) ∧
        token ∈ (Reading.ofText first rest).tokensAt (start + byteSize front)
          (first :: rest.take (Reading.ofText first rest).extra)) ∧
    ∀ error ∈ (ofText start text).errors, ∃ front first rest, ComesTo text front (first :: rest) ∧
      error ∈ (Reading.ofText first rest).errorsAt (start + byteSize front) := by
  fun_induction ofText start text with
  | case1 => simp
  | case2 start first rest reading taken ih =>
    -- a place in the rest is one in the text, behind what is taken here
    have later {front : List Char} {next : Char} {behind : List Char}
        (comes : ComesTo (rest.drop reading.extra) front (next :: behind)) :
        ComesTo (first :: rest) (taken ++ front) (next :: behind) := comes.later
    constructor
    · rw [tokens_push]
      refine List.forall_mem_append.mpr ⟨fun token member _ => ?_, fun token member proper => ?_⟩
      · exact ⟨[], first, rest, .start, member⟩
      · obtain ⟨front, next, behind, comes, found⟩ := ih.1 token member proper
        refine ⟨_, next, behind, later comes, ?_⟩
        rwa [byteSize_append, ← Nat.add_assoc]
    · rw [errors_push]
      refine List.forall_mem_append.mpr ⟨fun error member => ?_, fun error member => ?_⟩
      · exact ⟨[], first, rest, .start, member⟩
      · obtain ⟨front, next, behind, comes, found⟩ := ih.2 error member
        refine ⟨_, next, behind, later comes, ?_⟩
        rwa [byteSize_append, ← Nat.add_assoc]

end Lexed

end Cadence
