import Cadence.Proofs.Token.Positions

/-!
# What is reported of number literals

The parts of a number literal are described without reading it: what each of them may hold and what
must not follow it. Its digits stand in groups, and everything that is wrong with it is a maximal
run of separators out of place, a character that is no digit, or the lack of any digit. These are
reported, each of them once.
-/
namespace Cadence

open Source (File Span byteSize byteSize_append)
open NumberLiteral (Part imageOf fractionMark exponentMark announced?)

/-- The letter of a radix prefix. -/
def Announces (letter : Char) (radix : Radix) : Prop :=
  letter = 'x' ∧ radix = .hexadecimal ∨ letter = 'b' ∧ radix = .binary

/-- A fraction starts with a dot. -/
def IsFractionMark (mark : List Char) : Prop := mark = ['.']

/-- An exponent starts with its letter, and a sign may follow. -/
def IsExponentMark (mark : List Char) : Prop :=
  ∃ letter sign, mark = letter :: sign ∧ (letter = 'e' ∨ letter = 'E') ∧
    (sign = [] ∨ sign = ['+'] ∨ sign = ['-'])

/-- All characters of the run are of a kind, and what follows is not. -/
structure IsRun (test : Char → Bool) (run after : List Char) : Prop where
  inside : ∀ character ∈ run, test character = true
  ends : ∀ character ∈ after.head?, test character = false

theorem isRun_iff {test : Char → Bool} {run after : List Char} :
    IsRun test run after ↔ (run ++ after).takeWhile test = run := by
  constructor
  · exact fun isRun => takeWhile_append_stop isRun.inside isRun.ends
  · intro same
    have inside : ∀ character ∈ run, test character = true :=
      List.all_eq_true.mp (same ▸ List.all_takeWhile)
    refine ⟨inside, fun character member => Bool.eq_false_iff.mpr fun holds => ?_⟩
    obtain ⟨rest, rfl⟩ := List.head?_eq_some_iff.mp member
    rw [List.takeWhile_append_of_pos inside, List.takeWhile_cons_of_pos holds] at same
    simp at same

/-- A part of a literal that may be missing, in front of what follows it: a mark and a digit
introduce it, and it takes all digits and separators. -/
inductive IsPart (isMark : List Char → Prop) (after : List Char) : Option Part → Prop where
  | present {part : Part} (marked : isMark part.mark)
      (starts : ∃ digit rest, part.digits = digit :: rest ∧ digit.isDigit = true)
      (isRun : IsRun isDigitOrSeparator part.digits after) : IsPart isMark after (some part)
  | missing (absent : ∀ mark digit rest, isMark mark → digit.isDigit = true →
      after ≠ mark ++ digit :: rest) : IsPart isMark after none

/-- The parts of a number literal. -/
inductive NumberShape where
  /-- A zero, the letter of a radix, and all that follows. -/
  | announced (letter : Char) (radix : Radix) (digits : List Char)
  /-- The integer part, a fraction, an exponent, and further characters of names. -/
  | decimal (whole : List Char) (fraction exponent : Option Part) (tail : List Char)

namespace NumberShape

def image : NumberShape → List Char
  | announced letter _ digits => '0' :: letter :: digits
  | decimal whole fraction exponent tail =>
    whole ++ (imageOf fraction ++ (imageOf exponent ++ tail))

def radix : NumberShape → Radix
  | announced _ radix _ => radix
  | decimal .. => .decimal

def isReal : NumberShape → Bool
  | announced .. => false
  | decimal _ fraction exponent _ => fraction.isSome || exponent.isSome

/-- The groups of digits, each with what stands in front of it. The characters at the end of the
literal belong to the last group. -/
def groups : NumberShape → List (List Char × List Char)
  | announced letter _ digits => [(['0', letter], digits)]
  | decimal whole none none tail => [([], whole ++ tail)]
  | decimal whole (some fraction) none tail =>
    [([], whole), (whole ++ fraction.mark, fraction.digits ++ tail)]
  | decimal whole none (some exponent) tail =>
    [([], whole), (whole ++ exponent.mark, exponent.digits ++ tail)]
  | decimal whole (some fraction) (some exponent) tail =>
    [([], whole), (whole ++ fraction.mark, fraction.digits),
      (whole ++ fraction.image ++ exponent.mark, exponent.digits ++ tail)]

/-- The token that stands for the literal. -/
def lexeme (shape : NumberShape) : Lexeme :=
  if shape.isReal then .real (String.ofList (shape.image.filter (· ≠ digitSeparator)))
  else
    .integer (String.ofList (shape.groups.flatMap fun group =>
      group.2.filter (· ≠ digitSeparator))) shape.radix

/-- The literal stands in front of other text, and each of its parts takes all that it can. -/
inductive StandsBefore (after : List Char) : NumberShape → Prop where
  | announced {letter : Char} {radix : Radix} {digits : List Char}
      (announces : Announces letter radix) (isRun : IsRun isIdentifierMiddle digits after) :
      StandsBefore after (.announced letter radix digits)
  | decimal {whole : List Char} {fraction exponent : Option Part} {tail : List Char}
      (present : whole ≠ [])
      (plain : ∀ letter radix rest, Announces letter radix →
        whole ++ (imageOf fraction ++ (imageOf exponent ++ (tail ++ after))) ≠
          '0' :: letter :: rest)
      (isWhole : IsRun isDigitOrSeparator whole
        (imageOf fraction ++ (imageOf exponent ++ (tail ++ after))))
      (isFraction : IsPart IsFractionMark (imageOf exponent ++ (tail ++ after)) fraction)
      (isExponent : IsPart IsExponentMark (tail ++ after) exponent)
      (isTail : IsRun isIdentifierMiddle tail after) :
      StandsBefore after (.decimal whole fraction exponent tail)

end NumberShape

/-- A maximal run of separators in a group that is not a single one strictly inside of it. -/
structure IsMisplaced (left run right : List Char) : Prop where
  present : run ≠ []
  separators : ∀ character ∈ run, character = digitSeparator
  begins : left.getLast? ≠ some digitSeparator
  ends : right.head? ≠ some digitSeparator
  misplaced : left = [] ∨ right = [] ∨ run ≠ [digitSeparator]

/-- Where a run stands in its group. -/
def placeOf (left right : List Char) : SeparatorPlace :=
  if left = [] then .leading else if right = [] then .trailing else .consecutive

/-- All that is wrong with a literal at some place. -/
inductive NumberShape.HasFault (shape : NumberShape) (start : Nat) : LexError → Prop where
  | separators {front left run right : List Char}
      (isGroup : (front, left ++ (run ++ right)) ∈ shape.groups)
      (isMisplaced : IsMisplaced left run right) :
      HasFault shape start ⟨.misplacedSeparator (placeOf left right),
        spanOf (start + byteSize (front ++ left)) run⟩
  | digit {front left right : List Char} {digit : Char}
      (isGroup : (front, left ++ digit :: right) ∈ shape.groups)
      (proper : digit ≠ digitSeparator) (invalid : shape.radix.isDigit digit = false) :
      HasFault shape start ⟨.invalidDigit digit shape.radix (String.ofList shape.image),
        spanOf (start + byteSize (front ++ left)) [digit]⟩
  | missing {letter : Char} {radix : Radix} {digits : List Char}
      (announced : shape = .announced letter radix digits)
      (none : ∀ digit ∈ digits, digit = digitSeparator) :
      HasFault shape start ⟨.missingDigits (String.ofList ['0', letter]),
        spanOf start shape.image⟩

namespace DigitGroup

/-- A list of separators in front of something else is a run. -/
theorem isRun_separators {run after : List Char}
    (separators : ∀ character ∈ run, character = digitSeparator)
    (ends : after.head? ≠ some digitSeparator) : IsRun (· = digitSeparator) run after where
  inside := fun character member => decide_eq_true (separators character member)
  ends := fun _ member => decide_eq_false fun same => ends (same ▸ member)

/-- A misplaced run in a text that starts with separators is all of these, or it comes later. -/
theorem cases_of_isMisplaced {before run others left middle right : List Char}
    (separators : ∀ character ∈ run, character = digitSeparator)
    (ends : others.head? ≠ some digitSeparator) (split : run ++ others = left ++ (middle ++ right))
    (isMisplaced : IsMisplaced (before ++ left) middle right) :
    (left = [] ∧ middle = run ∧ right = others) ∨
      ∃ later, left = run ++ later ∧ others = later ++ (middle ++ right) := by
  rcases List.append_eq_append_iff.mp split with found | ⟨rest, isRun, same⟩
  · exact .inr found
  · have none : left = [] := by
      by_contra present
      -- the character in front of the run would be a separator
      refine isMisplaced.begins ?_
      have last : left.getLast present ∈ run :=
        isRun ▸ List.mem_append_left rest (List.getLast_mem present)
      rw [List.getLast?_append, List.getLast?_eq_some_getLast present, Option.some_or,
        separators _ last]
    subst none
    rw [List.nil_append] at isRun
    subst isRun
    have first := isRun_iff.mp (isRun_separators isMisplaced.separators isMisplaced.ends)
    have second := isRun_iff.mp (isRun_separators separators ends)
    rw [same, second] at first
    subst first
    exact .inl ⟨rfl, rfl, List.append_cancel_left same⟩

/-- The report on the run that a text starts with. -/
theorem mem_first_iff {before run others : List Char} {inside : Bool} {start stop : Nat}
    {error : LexError} (isInside : inside = !before.isEmpty)
    (separators : ∀ character ∈ run, character = digitSeparator)
    (begins : before.getLast? ≠ some digitSeparator) (ends : others.head? ≠ some digitSeparator) :
    error ∈ (if !inside then [(⟨.misplacedSeparator .leading, start, stop⟩ : LexError)]
      else if others = [] then [⟨.misplacedSeparator .trailing, start, stop⟩]
      else if run ≠ [] then [⟨.misplacedSeparator .consecutive, start, stop⟩]
      else []) ↔
      IsMisplaced before (digitSeparator :: run) others ∧
        error = ⟨.misplacedSeparator (placeOf before others), start, stop⟩ := by
  have all : ∀ character ∈ digitSeparator :: run, character = digitSeparator :=
    List.forall_mem_cons.mpr ⟨rfl, separators⟩
  have misplaced (wrong : before = [] ∨ others = [] ∨ run ≠ []) :
      IsMisplaced before (digitSeparator :: run) others :=
    ⟨List.cons_ne_nil _ _, all, begins, ends, by simpa using wrong⟩
  -- a run that is misplaced for several reasons is reported for the first one
  by_cases leading : before = []
  · rw [if_pos (by simp [isInside, leading]), placeOf, if_pos leading, List.mem_singleton]
    exact (and_iff_right (misplaced (.inl leading))).symm
  rw [if_neg (by simp [isInside, leading]), placeOf, if_neg leading]
  by_cases trailing : others = []
  · rw [if_pos trailing, if_pos trailing, List.mem_singleton]
    exact (and_iff_right (misplaced (.inr (.inl trailing)))).symm
  rw [if_neg trailing, if_neg trailing]
  by_cases single : run = []
  · have fits : ¬ IsMisplaced before (digitSeparator :: run) others := fun isMisplaced => by
      simpa [leading, trailing, single] using isMisplaced.misplaced
    simp [single, single ▸ fits]
  · rw [if_pos single, List.mem_singleton]
    exact (and_iff_right (misplaced (.inr (.inr single)))).symm

/-- The runs of separators that are reported in what is left of a group behind `before`. -/
theorem mem_separatorErrors_iff (before : List Char) {inside : Bool} {start : Nat}
    {digits : List Char} (isInside : inside = !before.isEmpty)
    (apart : before.getLast? = some digitSeparator → digits.head? ≠ some digitSeparator)
    {error : LexError} :
    error ∈ separatorErrors inside start digits ↔
      ∃ left run right, digits = left ++ (run ++ right) ∧ IsMisplaced (before ++ left) run right ∧
        error = ⟨.misplacedSeparator (placeOf (before ++ left) right),
          spanOf (start + byteSize left) run⟩ := by
  -- whether a run is misplaced depends on the whole group, and so on what was read of it
  fun_induction separatorErrors inside start digits generalizing before with
  | case1 =>
    constructor
    · simp
    · rintro ⟨left, run, right, split, isMisplaced, -⟩
      exact absurd (List.append_eq_nil_iff.mp (List.append_eq_nil_iff.mp split.symm).2).1
        isMisplaced.present
  | case2 inside start rest run others stop report =>
    rename_i ih
    -- the run is maximal: it ends where another character comes, and none is left in front of it
    have separators : ∀ character ∈ run, character = digitSeparator := by
      intro character member
      have separates := List.mem_takeWhile_imp member
      exact of_decide_eq_true separates
    have ends : others.head? ≠ some digitSeparator := fun same => by
      have := List.head?_dropWhile_not (fun digit => decide (digit = digitSeparator)) rest
      rw [show rest.dropWhile _ = others from rfl, same] at this
      simp at this
    have cut : digitSeparator :: rest = (digitSeparator :: run) ++ others :=
      congrArg (digitSeparator :: ·) List.takeWhile_append_dropWhile.symm
    have all : ∀ character ∈ digitSeparator :: run, character = digitSeparator :=
      List.forall_mem_cons.mpr ⟨rfl, separators⟩
    have size : stop = start + byteSize (digitSeparator :: run) := by
      rw [byteSize_separators all]
      rfl
    have begins : before.getLast? ≠ some digitSeparator := fun last => apart last rfl
    have present : before ++ digitSeparator :: run ≠ [] := by simp
    rw [cut, List.mem_append, mem_first_iff isInside separators begins ends,
      ih (before ++ digitSeparator :: run) (by simp) fun _ => ends]
    constructor
    · rintro (⟨isMisplaced, rfl⟩ | ⟨left, middle, right, split, isMisplaced, rfl⟩)
      · exact ⟨[], digitSeparator :: run, others, rfl, by simpa using isMisplaced,
          by simp [spanOf, size]⟩
      · refine ⟨digitSeparator :: run ++ left, middle, right, by simp [split], ?_, ?_⟩
        · simpa using isMisplaced
        · simp [size, Nat.add_assoc]
    · rintro ⟨left, middle, right, split, isMisplaced, rfl⟩
      rcases cases_of_isMisplaced all ends split isMisplaced with ⟨rfl, rfl, rfl⟩ | ⟨later, rfl, same⟩
      · exact .inl ⟨by simpa using isMisplaced, by simp [spanOf, size]⟩
      · refine .inr ⟨later, middle, right, same, ?_, ?_⟩
        · simpa using isMisplaced
        · simp [size, Nat.add_assoc]
  | case3 inside start first rest other ih =>
    rw [ih (before ++ [first]) (by simp) (by simp [other])]
    constructor
    · rintro ⟨left, run, right, rfl, isMisplaced, rfl⟩
      rw [List.append_assoc] at isMisplaced ⊢
      exact ⟨first :: left, run, right, rfl, isMisplaced, by simp [Nat.add_assoc]⟩
    · rintro ⟨left, run, right, split, isMisplaced, rfl⟩
      cases left with
      | nil =>
        -- the run starts with a separator
        cases run with
        | nil => exact absurd rfl isMisplaced.present
        | cons separator run =>
          obtain ⟨rfl, -⟩ := List.cons.inj split
          exact absurd (isMisplaced.separators _ List.mem_cons_self) other
      | cons _ left =>
        obtain ⟨rfl, rfl⟩ := List.cons.inj split
        refine ⟨left, run, right, rfl, ?_, ?_⟩
        · simpa using isMisplaced
        · simp [Nat.add_assoc]

theorem mem_digitErrors_iff {radix : Radix} {literal : String} {start : Nat} {digits : List Char}
    {error : LexError} :
    error ∈ digitErrors radix literal start digits ↔
      ∃ left digit right, digits = left ++ digit :: right ∧ digit ≠ digitSeparator ∧
        radix.isDigit digit = false ∧
        error = ⟨.invalidDigit digit radix literal, spanOf (start + byteSize left) [digit]⟩ := by
  -- a digit is wrong in the rest, or it is the first one and is wrong itself
  fun_induction digitErrors radix literal start digits with
  | case1 => simp
  | case2 start first rest stop valid ih =>
    rw [ih]
    constructor
    · rintro ⟨left, digit, right, rfl, proper, invalid, rfl⟩
      exact ⟨first :: left, digit, right, rfl, proper, invalid, by simp [stop, Nat.add_assoc]⟩
    · rintro ⟨left, digit, right, split, proper, invalid, rfl⟩
      cases left with
      | nil =>
        obtain ⟨rfl, -⟩ := List.cons.inj split
        simp [proper, invalid] at valid
      | cons _ left =>
        obtain ⟨rfl, rfl⟩ := List.cons.inj split
        exact ⟨left, digit, right, rfl, proper, invalid, by simp [stop, Nat.add_assoc]⟩
  | case3 start first rest stop invalid ih =>
    rw [List.mem_cons, ih]
    rw [not_or] at invalid
    constructor
    · rintro (rfl | ⟨left, digit, right, rfl, proper, invalid, rfl⟩)
      · exact ⟨[], first, rest, rfl, invalid.1, by simpa using invalid.2, by simp [stop, spanOf]⟩
      · exact ⟨first :: left, digit, right, rfl, proper, invalid, by simp [stop, Nat.add_assoc]⟩
    · rintro ⟨left, digit, right, split, proper, invalid, rfl⟩
      cases left with
      | nil =>
        obtain ⟨rfl, rfl⟩ := List.cons.inj split
        exact .inl (by simp [stop, spanOf])
      | cons _ left =>
        obtain ⟨rfl, rfl⟩ := List.cons.inj split
        exact .inr ⟨left, digit, right, rfl, proper, invalid, by simp [stop, Nat.add_assoc]⟩

end DigitGroup

/-- What a mark looks like, and that it is found. -/
structure Finds (isMark : List Char → Prop) (mark : List Char → List Char) : Prop where
  marked : ∀ ⦃text : List Char⦄, mark text ≠ [] → isMark (mark text)
  found : ∀ ⦃start : List Char⦄ ⦃digit : Char⦄ (rest : List Char), isMark start →
    digit.isDigit = true → start ≠ [] ∧ mark (start ++ digit :: rest) = start

theorem finds_fractionMark : Finds IsFractionMark fractionMark := by
  constructor
  · intro text present
    match text with
    | [] | [_] => simp [fractionMark] at present
    | first :: second :: rest =>
      rw [NumberLiteral.fractionMark_cons, ne_eq, ite_eq_right_iff, Classical.not_imp] at present
      rw [NumberLiteral.fractionMark_cons, if_pos present.1]
      exact rfl
  · rintro _ digit rest rfl isDigit
    simp [NumberLiteral.fractionMark_cons, isDigit]

theorem finds_exponentMark : Finds IsExponentMark exponentMark := by
  constructor
  · intro text present
    match text with
    | [] | [_] => simp [exponentMark] at present
    | letter :: next :: rest =>
      rw [NumberLiteral.exponentMark_cons] at present ⊢
      split at present
      next isLetter =>
        rw [if_pos isLetter]
        split at present
        next isSign =>
          split at present
          next => exact ⟨letter, [next], by simp [*], isLetter, by simpa using isSign⟩
          next => exact absurd rfl present
        next noSign =>
          split at present
          next => exact ⟨letter, [], by simp [*], isLetter, .inl rfl⟩
          next => exact absurd rfl present
      next => exact absurd rfl present
  · rintro _ digit rest ⟨letter, sign, rfl, isLetter, isSign⟩ isDigit
    have plus : digit ≠ '+' := by
      rintro rfl
      exact absurd isDigit (by decide)
    have minus : digit ≠ '-' := by
      rintro rfl
      exact absurd isDigit (by decide)
    -- the character behind the letter is a sign of the exponent or its first digit, never both
    refine ⟨List.cons_ne_nil _ _, ?_⟩
    rcases isSign with rfl | rfl | rfl
    all_goals simp [NumberLiteral.exponentMark_cons, isLetter, plus, minus, isDigit, secondIs]

/-- A text is parted where the part that a mark introduces ends. -/
theorem isPart_of_parts {isMark : List Char → Prop} {mark : List Char → List Char}
    (finds : Finds isMark mark) (known : NumberLiteral.IsMark mark) {part : Option Part}
    {after : List Char} (parts : NumberLiteral.Parts mark part after) : IsPart isMark after part := by
  -- a part is missing only where no mark begins, as a mark that is found has a digit behind it
  cases part with
  | none =>
    refine .missing fun start digit rest marked isDigit split => ?_
    obtain ⟨present, same⟩ := finds.found rest marked isDigit
    rw [NumberLiteral.Parts, imageOf, Option.map_none, Option.getD_none, List.nil_append, split,
      same, NumberLiteral.part?, if_neg present] at parts
    cases parts
  | some part =>
    obtain ⟨start, digits⟩ := part
    have whole : imageOf (some ⟨start, digits⟩) ++ after = start ++ (digits ++ after) := by
      simp [imageOf, Part.image]
    rw [NumberLiteral.Parts, whole, NumberLiteral.part?] at parts
    split at parts
    next => cases parts
    next present =>
      obtain ⟨isStart, isDigits⟩ := NumberLiteral.Part.mk.inj (Option.some.inj parts)
      obtain ⟨digit, rest, split, isDigit, -⟩ := known.found present
      rw [isStart] at split present isDigits
      rw [List.drop_left] at isDigits
      have follows := List.append_cancel_left split
      refine .present ?_ ?_ (isRun_iff.mpr isDigits)
      · exact isStart ▸ finds.marked (isStart.symm ▸ present)
      · -- the digits start with the one that the mark needs
        rw [follows, List.takeWhile_cons_of_pos (by simp [isDigitOrSeparator, isDigit])] at isDigits
        exact ⟨digit, _, isDigits.symm, isDigit⟩

namespace NumberShape

/-- The literal of the shape as it is taken apart. -/
def literal (shape : NumberShape) : NumberLiteral where
  radix := shape.radix
  isReal := shape.isReal
  groups := shape.groups.map fun group => ⟨byteSize group.1, group.2⟩
  image := shape.image

theorem literal_decimal (whole : List Char) (fraction exponent : Option Part) (tail : List Char) :
    (decimal whole fraction exponent tail).literal =
      NumberLiteral.decimal whole fraction exponent tail := by
  cases fraction <;> cases exponent <;>
    simp [literal, radix, isReal, groups, image, NumberLiteral.decimal, NumberLiteral.groupsOf,
      NumberLiteral.extendLast, imageOf, Part.image, Nat.add_assoc]

theorem lexeme_literal (shape : NumberShape) : shape.literal.lexeme = shape.lexeme := by
  simp [NumberLiteral.lexeme, lexeme, literal, List.flatMap_map, DigitGroup.withoutSeparators]

theorem announces_iff {text : List Char} {radix : Radix} :
    announced? text = some radix ↔
      ∃ letter rest, text = '0' :: letter :: rest ∧ Announces letter radix := by
  match text with
  | [] | [_] => simp [announced?]
  | first :: second :: rest =>
    rw [NumberLiteral.announced?_cons]
    by_cases zero : first = '0'
    · by_cases hexadecimal : second = 'x'
      · simp [zero, hexadecimal, Announces, eq_comm]
      · by_cases binary : second = 'b'
        · simp [zero, binary, Announces, eq_comm]
        · simp [zero, hexadecimal, binary, Announces]
    · simp [zero]

/-- Every number that a text starts with has a shape, and is taken apart accordingly. -/
theorem exists_standsBefore {text : List Char} (starts : StartsNumber text) :
    ∃ (shape : NumberShape) (after : List Char), text = shape.image ++ after ∧
      shape.StandsBefore after ∧ NumberLiteral.ofText text = shape.literal := by
  -- a literal is announced by a prefix, or it is decimal
  cases known : announced? text with
  | some radix =>
    obtain ⟨letter, rest, rfl, announces⟩ := announces_iff.mp known
    refine ⟨.announced letter radix (rest.takeWhile isIdentifierMiddle),
      rest.dropWhile isIdentifierMiddle, ?_, ?_, ?_⟩
    · simp [image]
    · exact .announced announces (isRun_iff.mpr (by rw [List.takeWhile_append_dropWhile]))
    · rw [NumberLiteral.ofText_of_announced known]
      rfl
  | none =>
    obtain ⟨fraction, exponent, tail, after, split, isDecimal⟩ :=
      NumberLiteral.exists_isDecimal known
    refine ⟨.decimal (text.takeWhile isDigitOrSeparator) fraction exponent tail, after, ?_, ?_, ?_⟩
    · simpa [image] using split
    · refine .decimal ?_ ?_ (isRun_iff.mpr isDecimal.isWhole)
        (isPart_of_parts finds_fractionMark NumberLiteral.isMark_fractionMark isDecimal.isFraction)
        (isPart_of_parts finds_exponentMark NumberLiteral.isMark_exponentMark isDecimal.isExponent)
        (isRun_iff.mpr isDecimal.isTail)
      · cases text with
        | nil => cases starts
        | cons first rest =>
          rw [List.takeWhile_cons_of_pos]
          · exact List.cons_ne_nil _ _
          · rcases starts with isDigit | ⟨rfl, -⟩
            · simp [isDigitOrSeparator, isDigit]
            · decide
      · -- the text would be read as a literal with a prefix
        intro letter radix rest announces same
        have announced := announces_iff.mpr ⟨letter, rest, same, announces⟩
        rw [isDecimal.plain] at announced
        cases announced
    · rw [literal_decimal, ← isDecimal.ofText_eq, ← split]

theorem StandsBefore.image_ne_nil {shape : NumberShape} {after : List Char}
    (stands : shape.StandsBefore after) : shape.image ≠ [] := by
  cases stands with
  | announced => exact List.cons_ne_nil _ _
  | decimal present => exact List.append_ne_nil_of_left_ne_nil present _

/-- The literal has no digits. -/
theorem no_digits_iff {shape : NumberShape} {after : List Char} (stands : shape.StandsBefore after) :
    (shape.literal.radix ≠ .decimal ∧
        shape.literal.groups.flatMap DigitGroup.withoutSeparators = []) ↔
      ∃ letter radix digits, shape = .announced letter radix digits ∧
        ∀ digit ∈ digits, digit = digitSeparator := by
  cases stands with
  | @announced letter radix digits announces _ =>
    have other : radix ≠ .decimal := by
      rcases announces with ⟨-, rfl⟩ | ⟨-, rfl⟩ <;> decide
    constructor
    · rintro ⟨-, none⟩
      exact ⟨letter, radix, digits, rfl, by simpa [literal, groups,
        DigitGroup.withoutSeparators] using none⟩
    · rintro ⟨_, _, _, ⟨⟩, none⟩
      exact ⟨other, by simpa [literal, groups, DigitGroup.withoutSeparators] using none⟩
  | decimal =>
    constructor
    · exact fun both => absurd rfl both.1
    · rintro ⟨_, _, _, ⟨⟩, -⟩

/-- The reports on a literal are its faults. -/
theorem mem_errors_iff {shape : NumberShape} {after : List Char} (stands : shape.StandsBefore after)
    {error : LexError} : error ∈ shape.literal.errors ↔ shape.HasFault 0 error := by
  have groupsEq : shape.literal.groups = shape.groups.map _ := rfl
  rw [NumberLiteral.errors, List.mem_append, List.mem_append, List.mem_flatMap, List.mem_flatMap]
  -- the three kinds of faults are reported one behind the other, group by group
  constructor
  · rintro ((⟨_, isGroup, found⟩ | ⟨_, isGroup, found⟩) | found)
    · obtain ⟨⟨front, digits⟩, member, rfl⟩ := List.mem_map.mp (groupsEq ▸ isGroup)
      obtain ⟨left, run, right, split, isMisplaced, rfl⟩ :=
        (DigitGroup.mem_separatorErrors_iff [] rfl (by simp)).mp found
      obtain rfl : digits = _ := split
      simpa using (.separators member isMisplaced : shape.HasFault 0 _)
    · obtain ⟨⟨front, digits⟩, member, rfl⟩ := List.mem_map.mp (groupsEq ▸ isGroup)
      obtain ⟨left, digit, right, split, proper, invalid, rfl⟩ :=
        DigitGroup.mem_digitErrors_iff.mp found
      obtain rfl : digits = _ := split
      simpa [literal] using (.digit member proper invalid : shape.HasFault 0 _)
    · split at found
      next lacks =>
        obtain ⟨letter, radix, digits, rfl, none⟩ := (no_digits_iff stands).mp lacks
        rw [List.mem_singleton.mp found]
        simpa [spanOf, literal, image] using
          (.missing rfl none : (announced letter radix digits).HasFault 0 _)
      next => cases found
  · intro fault
    cases fault with
    | @separators front left run right member isMisplaced =>
      refine .inl (.inl ⟨_, groupsEq ▸ List.mem_map_of_mem member, ?_⟩)
      exact (DigitGroup.mem_separatorErrors_iff [] rfl (by simp)).mpr
        ⟨left, run, right, rfl, isMisplaced, by simp⟩
    | @digit front left right digit member proper invalid =>
      refine .inl (.inr ⟨_, groupsEq ▸ List.mem_map_of_mem member, ?_⟩)
      exact DigitGroup.mem_digitErrors_iff.mpr
        ⟨left, digit, right, rfl, proper, invalid, by simp [literal]⟩
    | missing announced none =>
      have lacks := (no_digits_iff stands).mpr ⟨_, _, _, announced, none⟩
      subst announced
      refine .inr ?_
      rw [if_pos lacks]
      simp [spanOf, literal, image]

/-- The faults of a literal move with it. -/
theorem hasFault_iff {shape : NumberShape} {start : Nat} {error : LexError} :
    shape.HasFault start error ↔ ∃ own, shape.HasFault 0 own ∧
      { own with span := own.span.shift start } = error := by
  -- all faults are placed relative to where the literal starts
  have moves (amount : Nat) (part : List Char) :
      (spanOf (0 + amount) part).shift start = spanOf (start + amount) part := by
    simp only [spanOf, Span.shift, Source.Span.mk.injEq]
    omega
  have stays : (spanOf 0 shape.image).shift start = spanOf start shape.image := moves 0 _
  constructor
  · intro fault
    cases fault with
    | separators isGroup isMisplaced =>
      exact ⟨_, .separators isGroup isMisplaced, by rw [moves]⟩
    | digit isGroup proper invalid => exact ⟨_, .digit isGroup proper invalid, by rw [moves]⟩
    | missing announced none => exact ⟨_, .missing announced none, by rw [stays]⟩
  · rintro ⟨own, fault, rfl⟩
    cases fault with
    | separators isGroup isMisplaced =>
      rw [moves]
      exact .separators isGroup isMisplaced
    | digit isGroup proper invalid =>
      rw [moves]
      exact .digit isGroup proper invalid
    | missing announced none =>
      rw [stays]
      exact .missing announced none

end NumberShape

/-- What a literal is lexed to: one token that covers it, and each of its faults once. -/
structure Lexed.Contains (lexed : Lexed) (start : Nat) (shape : NumberShape) : Prop where
  tokens : lexed.tokensIn (spanOf start shape.image) =
    [⟨shape.lexeme, spanOf start shape.image, String.ofList shape.image⟩]
  errors : ∀ error, error ∈ lexed.errorsIn (spanOf start shape.image) ↔ shape.HasFault start error
  once : (lexed.errorsIn (spanOf start shape.image)).Nodup

theorem Lexed.nodup_errors (file : File) : (ofFile file).errors.Nodup :=
  (errors_ofFile file).2.imp fun differs same => by
    subst same
    exact differs rfl rfl

/-- A literal is read where reading comes to a number. -/
theorem Lexed.exists_contains {file : File} {front behind : List Char}
    (comes : ComesTo file.content front behind) (starts : StartsNumber behind) :
    ∃ (shape : NumberShape) (after : List Char), behind = shape.image ++ after ∧
      shape.StandsBefore after ∧ ComesTo file.content (front ++ shape.image) after ∧
      (ofFile file).Contains (file.start + byteSize front) shape := by
  obtain ⟨shape, after, split, stands, isLiteral⟩ := NumberShape.exists_standsBefore starts
  refine ⟨shape, after, split, stands, ?_⟩
  cases behind with
  | nil => cases starts
  | cons first rest =>
    have isRead := Reading.ofText_of_startsNumber starts
    rw [NumberLiteral.read, isLiteral] at isRead
    cases isImage : shape.image with
    | nil => exact absurd isImage stands.image_ne_nil
    | cons letter more =>
      rw [isImage] at split
      obtain ⟨rfl, rfl⟩ := List.cons.inj split
      -- what lies within the span of the literal is what one reading found there
      obtain ⟨next, tokens, errors⟩ := comes.found isRead
        (by simp [NumberShape.literal, isImage]) file.start
      rw [← isImage] at next tokens errors
      rw [NumberShape.lexeme_literal] at tokens
      refine ⟨isImage ▸ next, tokens, fun error => ?_, (nodup_errors file).filter _⟩
      · change error ∈ (ofText file.start file.content).errorsIn _ ↔ _
        rw [errors, Reading.errorsAt, List.mem_map, NumberShape.hasFault_iff]
        simp only [NumberShape.mem_errors_iff stands]

/-- The token is a number. -/
def Lexeme.isNumber : Lexeme → Bool
  | integer _ _ | real _ => true
  | _ => false

theorem Lexeme.not_isNumber_ofWord (word : String) : (ofWord word).isNumber = false := by
  unfold ofWord
  repeat' split
  all_goals rfl

/-- Each number is the token of a literal that reading comes to. -/
theorem Lexed.exists_literal {file : File} {token : Token} (member : token ∈ (ofFile file).tokens)
    (isNumber : token.lexeme.isNumber = true) :
    ∃ (front after : List Char) (shape : NumberShape),
      ComesTo file.content front (shape.image ++ after) ∧ StartsNumber (shape.image ++ after) ∧
      shape.StandsBefore after ∧ (ofFile file).Contains (file.start + byteSize front) shape ∧
      token = ⟨shape.lexeme, spanOf (file.start + byteSize front) shape.image,
        String.ofList shape.image⟩ := by
  have proper : token.lexeme ≠ .endOfInput := by
    intro isEnd
    simp [isEnd, Lexeme.isNumber] at isNumber
  have kind : token.lexeme.isNumberOrWord = true := by
    revert isNumber
    cases token.lexeme <;> simp [Lexeme.isNumber, Lexeme.isNumberOrWord]
  obtain ⟨front, first, rest, comes, found⟩ := (exists_comesTo _ _).1 token member proper
  obtain ⟨lexeme, isLexeme, rfl⟩ := List.mem_map.mp found
  rw [Option.mem_toList] at isLexeme
  rcases Reading.starts_of_isNumberOrWord isLexeme kind with starts | starts
  · obtain ⟨shape, after, split, stands, -, contains⟩ := exists_contains comes starts
    -- the token starts where the literal does
    have visible := Source.byteSize_pos stands.image_ne_nil
    have inside := mem_tokensIn_iff.mpr (show _ ∧ (spanOf _ shape.image).start ≤ _ ∧ _ from
      ⟨member, Nat.le_refl _, Nat.lt_add_of_pos_right visible⟩)
    refine ⟨front, after, shape, split ▸ comes, split ▸ starts, stands, contains, ?_⟩
    exact List.mem_singleton.mp (contains.tokens ▸ inside)
  · -- no word is a number
    rw [Reading.ofText_of_startsWord starts] at isLexeme
    obtain rfl := Option.some.inj isLexeme
    simp [Lexeme.not_isNumber_ofWord] at isNumber

/-- Wherever reading comes to a number, the literal that stands there is covered by one token, and
its faults are reported, each of them once and nothing else. Each number is such a token. -/
theorem literals_are_reported_exactly (file : File) :
    (∀ front behind, Lexed.ComesTo file.content front behind → StartsNumber behind →
      ∃ (shape : NumberShape) (after : List Char), behind = shape.image ++ after ∧
        shape.StandsBefore after ∧ Lexed.ComesTo file.content (front ++ shape.image) after ∧
        (Lexed.ofFile file).Contains (file.start + byteSize front) shape) ∧
    ∀ token ∈ (Lexed.ofFile file).tokens, token.lexeme.isNumber = true →
      ∃ (front after : List Char) (shape : NumberShape),
        Lexed.ComesTo file.content front (shape.image ++ after) ∧
        StartsNumber (shape.image ++ after) ∧ shape.StandsBefore after ∧
        (Lexed.ofFile file).Contains (file.start + byteSize front) shape ∧
        token = ⟨shape.lexeme, spanOf (file.start + byteSize front) shape.image,
          String.ofList shape.image⟩ := by
  constructor
  · exact fun _ _ comes starts => Lexed.exists_contains comes starts
  · exact fun _ member isNumber => Lexed.exists_literal member isNumber

/-- A literal with separators on both sides of its dot, and a letter of two bytes at its end. -/
theorem faulty_literal_is_reported_exactly :
    Lexed.ComesTo "1_.2__3é".toList [] "1_.2__3é".toList ∧ StartsNumber "1_.2__3é".toList ∧
      ∃ (shape : NumberShape) (after : List Char), "1_.2__3é".toList = shape.image ++ after ∧
        shape.StandsBefore after ∧ Lexed.ComesTo "1_.2__3é".toList shape.image after ∧
        (Lexed.ofFile ⟨.anonymous, "1_.2__3é".toList, 1⟩).Contains 1 shape := by
  have starts : StartsNumber "1_.2__3é".toList := .inl (by decide)
  exact ⟨.start, starts,
    (literals_are_reported_exactly ⟨.anonymous, "1_.2__3é".toList, 1⟩).1 [] _ .start starts⟩

end Cadence
