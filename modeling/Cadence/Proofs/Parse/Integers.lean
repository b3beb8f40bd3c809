import Cadence.Proofs.Parse.Accuracy
import Cadence.Proofs.Token.Literals
import Mathlib.Data.List.Basic
import Mathlib.Data.Nat.Digits.Defs

/-!
# The values of integers

The characters of an integer are checked where it is read, and its digits are converted where it is
parsed, without a report of their own. Both agree: nothing that is read without a fault is
converted to a zero in its place.

The conversion is known by two of its properties only. It gives the positional value of digits of
the radix, however many there are, and fails for other characters of names and for no digits at all.
-/
namespace Cadence

open Source (File Span byteSize)
open NumberLiteral (Part imageOf)

/-- The value of a digit of any radix. -/
def valueOfDigit (digit : Char) : Nat := "0123456789abcdef".toList.idxOf digit.toLower

/-- The value of digits that are written with the most significant one first. -/
def positionalValue (radix : Radix) (digits : List Char) : Nat :=
  Nat.ofDigits radix.value (digits.reverse.map valueOfDigit)

/-- A conversion of digits to their value. -/
structure IsConversion (convert : Radix → List Char → Option Nat) : Prop where
  value : ∀ radix digits, digits ≠ [] → (∀ digit ∈ digits, radix.isDigit digit = true) →
    convert radix digits = some (positionalValue radix digits)
  fails : ∀ radix digits,
    (∀ character ∈ digits, isIdentifierMiddle character = true ∧ character ≠ '_') →
    (digits = [] ∨ ∃ character ∈ digits, radix.isDigit character = false) →
    convert radix digits = none

/-- The characters of an integer that carry its value. -/
def digitsOf (radix : Radix) (image : List Char) : List Char :=
  (if radix = .decimal then image else image.drop 2).filter (· ≠ digitSeparator)

namespace Radix

theorem toNat_lt_of_isDigit {radix : Radix} {digit : Char} (isDigit : radix.isDigit digit = true) :
    digit.toNat < 128 := by
  cases radix with
  | binary =>
    simp only [Radix.isDigit, Bool.or_eq_true, decide_eq_true_eq] at isDigit
    rcases isDigit with rfl | rfl <;> decide
  | decimal =>
    simp only [Radix.isDigit, Char.isDigit, Bool.and_eq_true, decide_eq_true_eq,
      UInt32.le_iff_toNat_le] at isDigit
    exact Nat.lt_of_le_of_lt isDigit.2 (by decide)
  | hexadecimal =>
    simp only [Radix.isDigit, Char.isDigit, Bool.or_eq_true, Bool.and_eq_true, decide_eq_true_eq,
      Char.le_def, UInt32.le_iff_toNat_le] at isDigit
    rcases isDigit with (known | known) | known <;> exact Nat.lt_of_le_of_lt known.2 (by decide)

theorem digitValue_eq {radix : Radix} {digit : Char} (isDigit : radix.isDigit digit = true) :
    valueOf?.digitValue digit = valueOfDigit digit := by
  have all : ∀ radix ∈ [binary, decimal, hexadecimal], ∀ code < 128,
      radix.isDigit (Char.ofNat code) = true →
        valueOf?.digitValue (Char.ofNat code) = valueOfDigit (Char.ofNat code) := by
    decide +kernel
  have known := all radix (by cases radix <;> decide) digit.toNat (toNat_lt_of_isDigit isDigit)
  rw [Char.ofNat_toNat] at known
  exact known isDigit

theorem foldl_eq_positionalValue {radix : Radix} {digits : List Char}
    (valid : ∀ digit ∈ digits, radix.isDigit digit = true) :
    digits.foldl (fun value digit => value * radix.value + valueOf?.digitValue digit) 0 =
      positionalValue radix digits := by
  rw [positionalValue, Nat.ofDigits_eq_foldr, List.foldr_map, List.foldr_reverse]
  refine List.foldl_ext _ _ _ fun value digit member => ?_
  rw [digitValue_eq (valid digit member), Nat.mul_comm, Nat.add_comm]
  rfl

/-- The conversion of the parser is one. -/
theorem isConversion_valueOf? : IsConversion valueOf? := by
  constructor
  · intro radix digits present valid
    have all : digits.all radix.isDigit = true := List.all_eq_true.mpr valid
    simp [valueOf?, present, all, foldl_eq_positionalValue valid]
  · rintro radix digits - (rfl | ⟨character, member, invalid⟩)
    · simp [valueOf?]
    · have some : digits.all radix.isDigit = false :=
        List.all_eq_false.mpr ⟨character, member, by simp [invalid]⟩
      simp [valueOf?, some]

end Radix

theorem isIdentifierMiddle_of_isDigitOrSeparator {character : Char}
    (known : isDigitOrSeparator character = true) : isIdentifierMiddle character = true := by
  simp only [isDigitOrSeparator, Bool.or_eq_true, decide_eq_true_eq] at known
  rcases known with isDigit | rfl
  · exact isIdentifierMiddle_of_isDigit isDigit
  · decide +kernel

namespace NumberShape

/-- The only group of an integer, behind its prefix. -/
structure IsInteger (shape : NumberShape) (group : List Char) : Prop where
  groups_eq : ∃ front, shape.groups = [(front, group)]
  digits_eq : digitsOf shape.radix shape.image = group.filter (· ≠ digitSeparator)
  inside : ∀ character ∈ group, isIdentifierMiddle character = true
  lexeme_eq : shape.lexeme =
    .integer (String.ofList (group.filter (· ≠ digitSeparator))) shape.radix

theorem exists_isInteger {shape : NumberShape} {after : List Char}
    (stands : shape.StandsBefore after) (isWhole : shape.isReal = false) :
    ∃ group, shape.IsInteger group := by
  cases stands with
  | @announced letter radix digits announces isRun =>
    have other : radix ≠ .decimal := by
      rcases announces with ⟨-, rfl⟩ | ⟨-, rfl⟩ <;> decide
    exact ⟨digits, ⟨_, rfl⟩, by simp [digitsOf, NumberShape.radix, other, image], isRun.inside,
      by simp [lexeme, isReal, groups, NumberShape.radix]⟩
  | @decimal whole fraction exponent tail present plain isDigits isFraction isExponent isTail =>
    cases fraction with
    | some => simp [isReal] at isWhole
    | none =>
      cases exponent with
      | some => simp [isReal] at isWhole
      | none =>
        refine ⟨whole ++ tail, ⟨_, rfl⟩, by simp [digitsOf, radix, image, imageOf], ?_,
          by simp [lexeme, isReal, groups, radix]⟩
        exact List.forall_mem_append.mpr ⟨fun character member =>
          isIdentifierMiddle_of_isDigitOrSeparator (isDigits.inside character member),
          isTail.inside⟩

/-- A decimal literal has a digit: the one that it starts with. -/
theorem exists_digit {shape : NumberShape} {after : List Char}
    (stands : shape.StandsBefore after) (starts : StartsNumber (shape.image ++ after))
    (isDecimal : shape.radix = .decimal) : ∃ digit ∈ shape.image, digit ≠ digitSeparator := by
  have proper {digit : Char} (isDigit : digit.isDigit = true) : digit ≠ digitSeparator := by
    rintro rfl
    exact absurd isDigit (by decide)
  cases stands with
  | announced announces =>
    obtain rfl : _ = Radix.decimal := isDecimal
    simp [Announces] at announces
  | @decimal whole fraction exponent tail present plain isDigits =>
    cases whole with
    | nil => exact absurd rfl present
    | cons first more =>
      rcases starts with isDigit | ⟨rfl, digit, behind, follows, isDigit⟩
      · exact ⟨first, List.mem_cons_self, proper isDigit⟩
      · cases more with
        | nil =>
          -- the separator would not be all of the run that it starts
          have ends := isDigits.ends digit (by
            have split : imageOf fraction ++ (imageOf exponent ++ (tail ++ after)) =
                digit :: behind := by simpa [image] using follows
            rw [split]
            rfl)
          simp [isDigitOrSeparator, isDigit] at ends
        | cons next more =>
          obtain ⟨rfl, -⟩ := List.cons.inj follows
          exact ⟨next, by simp [image], proper isDigit⟩

theorem digitsOf_decimal_ne_nil {shape : NumberShape} {after : List Char}
    (stands : shape.StandsBefore after) (starts : StartsNumber (shape.image ++ after))
    (isDecimal : shape.radix = .decimal) : digitsOf shape.radix shape.image ≠ [] := by
  obtain ⟨digit, member, proper⟩ := exists_digit stands starts isDecimal
  rw [digitsOf, if_pos isDecimal]
  exact List.ne_nil_of_mem (List.mem_filter.mpr ⟨member, decide_eq_true proper⟩)

/-- An integer is reported for its digits exactly if it has none or one of them is invalid. -/
theorem exists_fault_iff {shape : NumberShape} {after : List Char} {group : List Char}
    (stands : shape.StandsBefore after) (starts : StartsNumber (shape.image ++ after))
    (isInteger : shape.IsInteger group) (start : Nat) :
    (∃ error, shape.HasFault start error ∧ error.fault.code = .e002) ↔
      (digitsOf shape.radix shape.image = [] ∨
        ∃ character ∈ digitsOf shape.radix shape.image, shape.radix.isDigit character = false) := by
  obtain ⟨front, groupsEq⟩ := isInteger.groups_eq
  rw [isInteger.digits_eq]
  constructor
  · rintro ⟨error, fault, isCode⟩
    cases fault with
    | separators => cases isCode
    | @digit _ left right digit isGroup proper invalid =>
      rw [groupsEq, List.mem_singleton] at isGroup
      obtain rfl : _ = group := congrArg Prod.snd isGroup
      exact .inr ⟨digit, by simp [proper], invalid⟩
    | @missing letter radix digits announced none =>
      subst announced
      obtain rfl : digits = group := congrArg Prod.snd (List.cons.inj groupsEq).1
      exact .inl (List.filter_eq_nil_iff.mpr fun digit member => by simp [none digit member])
  · rintro (none | ⟨character, member, invalid⟩)
    · cases shape with
      | announced letter radix digits =>
        obtain rfl : digits = group := congrArg Prod.snd (List.cons.inj groupsEq).1
        refine ⟨_, .missing rfl fun digit member => ?_, rfl⟩
        simpa using List.filter_eq_nil_iff.mp none digit member
      | decimal whole fraction exponent tail =>
        -- the lack of digits is reported behind a prefix only, but a decimal literal has a digit
        exact absurd (isInteger.digits_eq.trans none) (digitsOf_decimal_ne_nil stands starts rfl)
    · obtain ⟨inside, proper⟩ := List.mem_filter.mp member
      obtain ⟨left, right, rfl⟩ := List.append_of_mem inside
      exact ⟨_, .digit (groupsEq ▸ List.mem_singleton_self _) (of_decide_eq_true proper) invalid, rfl⟩

end NumberShape

/-- What is known of an integer: its digits are those that are written, and they are converted to
their positional value unless a fault of them is reported. -/
structure Token.IsKept (convert : Radix → List Char → Option Nat) (lexed : Lexed) (token : Token)
    (digits : String) (radix : Radix) : Prop where
  digits_eq : digits.toList = digitsOf radix token.image.toList
  value : (∀ error ∈ lexed.errorsIn token.span, error.fault.code ≠ .e002) →
    digits.toList ≠ [] ∧ convert radix digits.toList = some (positionalValue radix digits.toList)
  fails_iff : convert radix digits.toList = none ↔
    ∃ error ∈ lexed.errorsIn token.span, error.fault.code = .e002

section Conversion

variable {convert : Radix → List Char → Option Nat} (isConversion : IsConversion convert)
include isConversion

theorem Lexed.isKept_of_mem {file : File} {token : Token} (member : token ∈ (ofFile file).tokens)
    {digits : String} {radix : Radix} (isInteger : token.lexeme = .integer digits radix) :
    token.IsKept convert (ofFile file) digits radix := by
  obtain ⟨front, after, shape, comes, starts, stands, contains, rfl⟩ :=
    exists_literal member (by rw [isInteger]; rfl)
  have isWhole : shape.isReal = false := by
    cases known : shape.isReal with
    | false => rfl
    | true => simp [NumberShape.lexeme, known] at isInteger
  obtain ⟨group, shapeIsInteger⟩ := NumberShape.exists_isInteger stands isWhole
  obtain ⟨sameDigits, rfl⟩ := Lexeme.integer.inj (shapeIsInteger.lexeme_eq.symm.trans isInteger)
  -- the digits of the token are those of the literal, without separators and prefix
  have written : digits.toList = digitsOf shape.radix shape.image := by
    rw [shapeIsInteger.digits_eq, ← sameDigits, String.toList_ofList]
  have reported : (∃ error ∈ (ofFile file).errorsIn
      (spanOf (file.start + byteSize front) shape.image), error.fault.code = .e002) ↔
      (digits.toList = [] ∨
        ∃ character ∈ digits.toList, shape.radix.isDigit character = false) := by
    rw [written, ← NumberShape.exists_fault_iff stands starts shapeIsInteger
      (file.start + byteSize front)]
    simp only [contains.errors]
  have plain : ∀ character ∈ digits.toList,
      isIdentifierMiddle character = true ∧ character ≠ '_' := by
    rw [written, shapeIsInteger.digits_eq]
    intro character member
    obtain ⟨inside, proper⟩ := List.mem_filter.mp member
    exact ⟨shapeIsInteger.inside character inside, of_decide_eq_true proper⟩
  -- without a fault, the digits are in the radix, and then the conversion gives their value
  have valid (clean : ¬ (digits.toList = [] ∨
      ∃ character ∈ digits.toList, shape.radix.isDigit character = false)) :
      digits.toList ≠ [] ∧ convert shape.radix digits.toList =
        some (positionalValue shape.radix digits.toList) := by
    rw [not_or, not_exists] at clean
    refine ⟨clean.1, isConversion.value _ _ clean.1 fun digit member => ?_⟩
    simpa using not_and.mp (clean.2 digit) member
  constructor
  · rw [written, String.toList_ofList]
  · intro clean
    refine valid fun wrong => ?_
    obtain ⟨error, member, isCode⟩ := reported.mpr wrong
    exact clean error member isCode
  · rw [reported]
    constructor
    · intro none
      by_contra clean
      rw [(valid clean).2] at none
      cases none
    · exact isConversion.fails _ _ plain

end Conversion

/-- All conversions agree on the digits of an integer. -/
theorem Token.IsKept.convert_eq {convert other : Radix → List Char → Option Nat} {lexed : Lexed}
    {token : Token} {digits : String} {radix : Radix} (first : token.IsKept convert lexed digits radix)
    (second : token.IsKept other lexed digits radix) :
    convert radix digits.toList = other radix digits.toList := by
  by_cases reported : ∃ error ∈ lexed.errorsIn token.span, error.fault.code = .e002
  · rw [first.fails_iff.mpr reported, second.fails_iff.mpr reported]
  · have clean : ∀ error ∈ lexed.errorsIn token.span, error.fault.code ≠ .e002 :=
      fun error member isCode => reported ⟨error, member, isCode⟩
    rw [(first.value clean).2, (second.value clean).2]

/-- An integer is an expression by itself. -/
theorem Parser.run_primary_integer (inner : Inner) {state : ParseState} {digits : String}
    {radix : Radix} (isInteger : state.current.token.lexeme = .integer digits radix) :
    (primary inner).run state =
      (some (.typed state.current.token.span (.builtin .int)
        (.integer ((radix.valueOf? digits.toList).getD 0) radix)),
        { state with ahead := state.ahead.tail }) := by
  unfold primary
  rw [run_bind]
  change Parser.run (match state.current.token.lexeme with | _ => _) state = _
  simp only [isInteger]
  rfl

/-- The tokens that a file is parsed from are tokens of the file. -/
theorem Parsed.mem_tokens_of_mem_inputOf {file : File} {placed : PlacedToken}
    (member : placed ∈ inputOf file) : placed.token ∈ (Lexed.ofFile file).tokens := by
  have inside := List.mem_map_of_mem (f := PlacedToken.token) (List.dropLast_subset _ member)
  rwa [map_token_placeTokens] at inside

/-- An integer in the tree stands for one token, possibly in brackets. -/
theorem Parsed.exists_integer {file : File} {expression : Expr} {value : Nat} {radix : Radix}
    (member : expression ∈ Node.expressionsAll (ofFile file).nodes)
    (isInteger : expression.form = .integer value radix) :
    ∃ placed ∈ inputOf file, ∃ digits own, placed.token.lexeme = .integer digits radix ∧
      Bracketed [placed] own ∧ IsSpanOf expression.span own ∧
      value = (radix.valueOf? digits.toList).getD 0 := by
  obtain ⟨cover, -⟩ := coverAll_nodes file
  obtain ⟨⟨own, isWithin, isSpan, inside, bracketed, sequence⟩, -⟩ :=
    cover.expressions (areOrdered_inputOf file).1 expression member
  cases expression with
  | mk info form =>
    obtain rfl : form = _ := isInteger
    obtain ⟨placed, rfl, type, isLiteral⟩ := sequence_singleton.mp sequence
    generalize isLexeme : placed.token.lexeme = lexeme at isLiteral
    cases isLiteral with
    | integer =>
      exact ⟨placed, isWithin.subset (bracketed.isWithin.subset List.mem_cons_self), _, own,
        isLexeme, bracketed, isSpan, rfl⟩

/-- An integer that is read without an invalid or missing digit has digits, and it is parsed to their
positional value. The conversion fails, so that a zero is put in its place, exactly where such
a digit is reported. Each integer of the tree stands for a token that is parsed in this way. -/
theorem integers_keep_their_values {convert : Radix → List Char → Option Nat}
    (isConversion : IsConversion convert) (file : File) :
    (∀ token ∈ (Lexed.ofFile file).tokens, ∀ digits radix, token.lexeme = .integer digits radix →
      token.IsKept convert (Lexed.ofFile file) digits radix ∧
      ∀ inner state, state.current.token = token →
        (Parser.primary inner).run state =
          (some (.typed token.span (.builtin .int)
            (.integer ((convert radix digits.toList).getD 0) radix)),
            { state with ahead := state.ahead.tail })) ∧
    ∀ expression ∈ Node.expressionsAll (Parsed.ofFile file).nodes, ∀ value radix,
      expression.form = .integer value radix →
      ∃ placed ∈ Parsed.inputOf file, ∃ digits own,
        placed.token ∈ (Lexed.ofFile file).tokens ∧
        placed.token.lexeme = .integer digits radix ∧ Bracketed [placed] own ∧
        IsSpanOf expression.span own ∧ value = (convert radix digits.toList).getD 0 ∧
        ((∀ error ∈ (Lexed.ofFile file).errorsIn placed.token.span, error.fault.code ≠ .e002) →
          value = positionalValue radix (digitsOf radix placed.token.image.toList)) := by
  have kept {token : Token} (member : token ∈ (Lexed.ofFile file).tokens) {digits : String}
      {radix : Radix} (isInteger : token.lexeme = .integer digits radix) :=
    Lexed.isKept_of_mem isConversion member isInteger
  -- whatever converts the digits, the parser comes to the same value
  have same {token : Token} (member : token ∈ (Lexed.ofFile file).tokens) {digits : String}
      {radix : Radix} (isInteger : token.lexeme = .integer digits radix) :
      radix.valueOf? digits.toList = convert radix digits.toList :=
    (Lexed.isKept_of_mem Radix.isConversion_valueOf? member isInteger).convert_eq
      (kept member isInteger)
  constructor
  · intro token member digits radix isInteger
    refine ⟨kept member isInteger, fun inner state isCurrent => ?_⟩
    subst isCurrent
    rw [Parser.run_primary_integer inner isInteger, same member isInteger]
  · intro expression member value radix isInteger
    obtain ⟨placed, isInput, digits, own, isLexeme, bracketed, isSpan, rfl⟩ :=
      Parsed.exists_integer member isInteger
    have isToken := Parsed.mem_tokens_of_mem_inputOf isInput
    refine ⟨placed, isInput, digits, own, isToken, isLexeme, bracketed, isSpan,
      by rw [same isToken isLexeme], fun clean => ?_⟩
    rw [same isToken isLexeme, ((kept isToken isLexeme).value clean).2,
      (kept isToken isLexeme).digits_eq]
    rfl

/-- A hexadecimal integer with a separator has the value of its digits. -/
theorem hexadecimal_integer_keeps_its_value :
    IsConversion Radix.valueOf? ∧
      Radix.valueOf? .hexadecimal "fF".toList = some 255 ∧
      ∃ token ∈ (Lexed.ofFile ⟨.anonymous, "0xf_F".toList, 1⟩).tokens,
        token.lexeme = .integer "fF" .hexadecimal ∧
        token.IsKept Radix.valueOf? (Lexed.ofFile ⟨.anonymous, "0xf_F".toList, 1⟩) "fF"
          .hexadecimal := by
  have isToken : (⟨.integer "fF" .hexadecimal, ⟨1, 6⟩, "0xf_F"⟩ : Token) ∈
      (Lexed.ofFile ⟨.anonymous, "0xf_F".toList, 1⟩).tokens := by decide +kernel
  refine ⟨Radix.isConversion_valueOf?, by decide, _, isToken, rfl, ?_⟩
  exact ((integers_keep_their_values Radix.isConversion_valueOf?
    ⟨.anonymous, "0xf_F".toList, 1⟩).1 _ isToken _ _ rfl).1

end Cadence
