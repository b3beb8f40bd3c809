import Cadence.Proofs.Token.Context

/-!
# Number literals are free of context

A number literal is read part by part: the digits in front, then a fraction and an exponent, if a
mark and a digit announce them, and then all that could belong to a name. White space ends each of
these parts and announces none.
-/
namespace Cadence

open Source (byteSize)
open Text (isBlank)

namespace NumberLiteral

/-- A mark that digits have to follow is known by itself and one digit. -/
structure IsMark (mark : List Char → List Char) : Prop where
  found : ∀ ⦃text : List Char⦄, mark text ≠ [] → ∃ (digit : Char) (rest : List Char),
    text = mark text ++ digit :: rest ∧ digit.isDigit = true ∧
      ∀ other, mark (mark text ++ digit :: other) = mark text
  lost : ∀ ⦃front after behind : List Char⦄, Stops behind → mark (front ++ after) = [] →
    mark (front ++ behind) = []

theorem fractionMark_cons (first second : Char) (rest : List Char) :
    fractionMark (first :: second :: rest) =
      if first = '.' ∧ second.isDigit = true then ['.'] else [] := by
  by_cases dot : first = '.'
  · subst dot
    simp [fractionMark]
  · simp [fractionMark, dot]

theorem isMark_fractionMark : IsMark fractionMark := by
  constructor
  · intro text present
    match text with
    | [] | [_] => simp [fractionMark] at present
    | first :: second :: rest =>
      rw [fractionMark_cons, ne_eq, ite_eq_right_iff, Classical.not_imp] at present
      obtain ⟨⟨rfl, isDigit⟩, -⟩ := present
      refine ⟨second, rest, ?_, isDigit, fun other => ?_⟩ <;>
        simp [fractionMark_cons, isDigit]
  · intro front after behind stops absent
    match front, behind with
    | [], [] | [_], [] => simp [fractionMark]
    | [], [blank] => simp [fractionMark]
    | [], blank :: next :: rest =>
      have := ne_of_isBlank stops.of_cons '.' (by decide)
      simp [fractionMark_cons, this]
    | [first], blank :: rest =>
      simp [fractionMark_cons, not_isDigit_of_isBlank stops.of_cons]
    | first :: second :: front, behind =>
      rw [List.cons_append, List.cons_append, fractionMark_cons] at absent ⊢
      exact absent

theorem exponentMark_cons (letter next : Char) (rest : List Char) :
    exponentMark (letter :: next :: rest) =
      if letter = 'e' ∨ letter = 'E' then
        if next = '+' ∨ next = '-' then
          if secondIs Char.isDigit (next :: rest) = true then [letter, next] else []
        else if next.isDigit then [letter] else []
      else [] := by
  cases rest <;> rfl

/-- An exponent is announced by its letter, the sign that may follow, and one digit. -/
theorem exponentMark_found {text : List Char} (present : exponentMark text ≠ []) :
    ∃ (digit : Char) (rest : List Char),
      text = exponentMark text ++ digit :: rest ∧ digit.isDigit = true ∧
        ∀ other, exponentMark (exponentMark text ++ digit :: other) = exponentMark text := by
  obtain _ | ⟨letter, _ | ⟨next, rest⟩⟩ := text
  · simp [exponentMark] at present
  · simp [exponentMark] at present
  rw [exponentMark_cons] at present ⊢
  -- the letter comes first, then a sign that a digit has to follow, or the digit at once
  split at present
  next isLetter =>
    split at present
    next isSign =>
      split at present
      next followed =>
        obtain ⟨digit, rest, rfl, isDigit⟩ := secondIs_eq_true_iff.mp followed
        refine ⟨digit, rest, ?_, isDigit, fun other => ?_⟩
        · simp [isLetter, isSign, followed]
        · simp [exponentMark_cons, isLetter, isSign, secondIs, isDigit]
      next => exact absurd rfl present
    next noSign =>
      split at present
      next isDigit =>
        refine ⟨next, rest, ?_, isDigit, fun other => ?_⟩
        · simp [isLetter, noSign, isDigit]
        · simp [exponentMark_cons, isLetter, noSign, isDigit]
      next => exact absurd rfl present
  next => exact absurd rfl present

/-- A letter and its sign announce nothing where a blank stands behind them. -/
theorem exponentMark_pair_lost {letter next : Char} {after behind : List Char}
    (stops : Stops behind) (absent : exponentMark (letter :: next :: after) = []) :
    exponentMark (letter :: next :: behind) = [] := by
  have ends : ¬ secondIs Char.isDigit (next :: behind) = true := fun holds => by
    obtain ⟨blank, rest, rfl, isDigit⟩ := secondIs_eq_true_iff.mp holds
    simp [not_isDigit_of_isBlank stops.of_cons] at isDigit
  simp only [exponentMark_cons, if_neg ends] at absent ⊢
  split
  next isLetter =>
    rw [if_pos isLetter] at absent
    split
    next => rfl
    next noSign =>
      rw [if_neg noSign] at absent
      exact absent
  next => rfl

theorem exponentMark_lost {front after behind : List Char} (stops : Stops behind)
    (absent : exponentMark (front ++ after) = []) : exponentMark (front ++ behind) = [] := by
  obtain _ | ⟨letter, _ | ⟨next, _ | ⟨third, front⟩⟩⟩ := front
  · obtain _ | ⟨blank, _ | ⟨next, rest⟩⟩ := behind
    · simp [exponentMark]
    · simp [exponentMark]
    have := ne_of_isBlank stops.of_cons 'e' (by decide)
    have := ne_of_isBlank stops.of_cons 'E' (by decide)
    simp [exponentMark_cons, *]
  · obtain _ | ⟨blank, rest⟩ := behind
    · simp [exponentMark]
    have := ne_of_isBlank stops.of_cons '+' (by decide)
    have := ne_of_isBlank stops.of_cons '-' (by decide)
    simp [exponentMark_cons, not_isDigit_of_isBlank stops.of_cons, *]
  · exact exponentMark_pair_lost stops absent
  · simp only [List.cons_append, exponentMark_cons] at absent ⊢
    exact absent

theorem isMark_exponentMark : IsMark exponentMark where
  found _ := exponentMark_found
  lost _ _ _ := exponentMark_lost

theorem isVisible_isDigitOrSeparator : IsVisible isDigitOrSeparator := fun character blank => by
  have := ne_of_isBlank blank digitSeparator (by decide)
  simp [isDigitOrSeparator, not_isDigit_of_isBlank blank, this]

/-- The characters of a part that may be missing. -/
def imageOf (part : Option Part) : List Char := (part.map Part.image).getD []

theorem part?_of_present {mark text : List Char} (present : mark ≠ []) :
    part? mark (mark ++ text) = some ⟨mark, text.takeWhile isDigitOrSeparator⟩ := by
  rw [part?, if_neg present, List.drop_left]

/-- A mark parts a text into the digits it introduces, if any, and the rest. -/
def Parts (mark : List Char → List Char) (part : Option Part) (rest : List Char) : Prop :=
  part? (mark (imageOf part ++ rest)) (imageOf part ++ rest) = part

theorem IsMark.exists_parts {mark : List Char → List Char} (isMark : IsMark mark)
    (text : List Char) : ∃ part rest, text = imageOf part ++ rest ∧ Parts mark part rest := by
  by_cases absent : mark text = []
  · exact ⟨none, text, rfl, if_pos absent⟩
  · obtain ⟨digit, rest, split, -, -⟩ := isMark.found absent
    have whole : text = imageOf (some ⟨mark text, (digit :: rest).takeWhile isDigitOrSeparator⟩) ++
        (digit :: rest).dropWhile isDigitOrSeparator := by
      change text = mark text ++ _ ++ _
      rw [List.append_assoc, List.takeWhile_append_dropWhile, ← split]
    refine ⟨_, _, whole, ?_⟩
    rw [Parts, ← whole]
    exact (congrArg (part? (mark text)) split).trans (part?_of_present absent)

/-- A text is parted in the same place if white space follows later instead of what follows there.
-/
theorem IsMark.parts_append {mark : List Char → List Char} (isMark : IsMark mark)
    {part : Option Part} {inner after behind : List Char} (stops : Stops behind)
    (parts : Parts mark part (inner ++ after)) : Parts mark part (inner ++ behind) := by
  cases part with
  | none =>
    have absent : mark (inner ++ after) = [] := Classical.byContradiction fun present => by
      have := parts.symm.trans (if_neg present)
      cases this
    exact if_pos (isMark.lost stops absent)
  | some part =>
    obtain ⟨found, digits⟩ := part
    have split : imageOf (some ⟨found, digits⟩) = found ++ digits := rfl
    rw [Parts, split, List.append_assoc] at parts ⊢
    have present : mark (found ++ (digits ++ (inner ++ after))) ≠ [] := fun absent => by
      rw [part?, if_pos absent] at parts
      cases parts
    rw [part?, if_neg present] at parts
    obtain ⟨isFound, isRun⟩ := Part.mk.inj (Option.some.inj parts)
    obtain ⟨digit, rest, starts, isDigit, again⟩ := isMark.found present
    rw [isFound] at present starts again isRun
    rw [List.drop_left] at isRun
    have same := takeWhile_append_stops isVisible_isDigitOrSeparator _ stops isRun
    -- the mark is still there, as the digits start with the digit that it needs
    rw [List.append_cancel_left starts,
      List.takeWhile_cons_of_pos (by simp [isDigitOrSeparator, isDigit])] at isRun
    have known : mark (found ++ (digits ++ (inner ++ behind))) = found := by
      rw [← isRun]
      exact again _
    rw [known, part?_of_present present, same]

/-- A decimal literal, put together from its parts. -/
def decimal (whole : List Char) (fraction exponent : Option Part) (tail : List Char) :
    NumberLiteral :=
  let parts := ⟨[], whole⟩ :: fraction.toList ++ exponent.toList
  { radix := .decimal
    isReal := fraction.isSome || exponent.isSome
    groups := extendLast tail (groupsOf 0 parts)
    image := parts.flatMap Part.image ++ tail }

theorem image_decimal (whole : List Char) (fraction exponent : Option Part) (tail : List Char) :
    (decimal whole fraction exponent tail).image =
      whole ++ (imageOf fraction ++ (imageOf exponent ++ tail)) := by
  cases fraction <;> cases exponent <;> simp [decimal, imageOf, Part.image]

/-- The text that the parts of a decimal literal make is read as these parts. -/
structure IsDecimal (whole : List Char) (fraction exponent : Option Part)
    (tail after : List Char) : Prop where
  plain : announced? (whole ++ (imageOf fraction ++ (imageOf exponent ++ (tail ++ after)))) = none
  isWhole : (whole ++ (imageOf fraction ++ (imageOf exponent ++ (tail ++ after)))).takeWhile
    isDigitOrSeparator = whole
  isFraction : Parts fractionMark fraction (imageOf exponent ++ (tail ++ after))
  isExponent : Parts exponentMark exponent (tail ++ after)
  isTail : (tail ++ after).takeWhile isIdentifierMiddle = tail

theorem IsDecimal.ofText_eq {whole : List Char} {fraction exponent : Option Part}
    {tail after : List Char} (isDecimal : IsDecimal whole fraction exponent tail after) :
    ofText (whole ++ (imageOf fraction ++ (imageOf exponent ++ (tail ++ after)))) =
      decimal whole fraction exponent tail := by
  have first (text : List Char) : (whole ++ text).drop (Part.image ⟨[], whole⟩).length = text :=
    List.drop_left
  have next (part : Option Part) (text : List Char) :
      (imageOf part ++ text).drop ((part.map Part.image).getD []).length = text := List.drop_left
  have isFraction := isDecimal.isFraction
  have isExponent := isDecimal.isExponent
  rw [Parts] at isFraction isExponent
  simp only [ofText, isDecimal.plain, isDecimal.isWhole, first, isFraction, next, isExponent,
    isDecimal.isTail]
  rfl

theorem announced?_cons (first second : Char) (rest : List Char) :
    announced? (first :: second :: rest) =
      if first = '0' then
        if second = 'x' then some .hexadecimal else if second = 'b' then some .binary else none
      else none := by
  by_cases zero : first = '0'
  · subst zero
    by_cases hexadecimal : second = 'x'
    · simp [hexadecimal, announced?]
    · by_cases binary : second = 'b'
      · simp [binary, announced?]
      · simp [hexadecimal, binary, announced?]
  · simp [zero, announced?]

theorem announced?_append {first : Char} (more : List Char) {after behind : List Char}
    (stops : Stops behind)
    (plain : announced? (first :: (more ++ after)) = none) :
    announced? (first :: (more ++ behind)) = none := by
  match more, behind with
  | [], [] => simp [announced?]
  | [], blank :: rest =>
    have := ne_of_isBlank stops.of_cons 'x' (by decide)
    have := ne_of_isBlank stops.of_cons 'b' (by decide)
    simp [announced?_cons, *]
  | next :: more, behind =>
    rw [List.cons_append, announced?_cons] at plain ⊢
    exact plain

theorem ofText_of_announced {first second : Char} {rest : List Char} {radix : Radix}
    (known : announced? (first :: second :: rest) = some radix) :
    ofText (first :: second :: rest) =
      { radix, isReal := false
        groups := [⟨byteSize [first, second], rest.takeWhile isIdentifierMiddle⟩]
        image := first :: second :: rest.takeWhile isIdentifierMiddle } := by
  simp only [ofText, known]
  rfl

theorem exists_isDecimal {text : List Char} (plain : announced? text = none) :
    ∃ fraction exponent tail after,
      text = text.takeWhile isDigitOrSeparator ++
        (imageOf fraction ++ (imageOf exponent ++ (tail ++ after))) ∧
      IsDecimal (text.takeWhile isDigitOrSeparator) fraction exponent tail after := by
  obtain ⟨fraction, behindFraction, first, isFraction⟩ :=
    isMark_fractionMark.exists_parts (text.dropWhile isDigitOrSeparator)
  obtain ⟨exponent, behindExponent, rfl, isExponent⟩ :=
    isMark_exponentMark.exists_parts behindFraction
  have last := List.takeWhile_append_dropWhile (p := isIdentifierMiddle) (l := behindExponent)
  rw [← last] at first isFraction isExponent
  have split := first ▸ (List.takeWhile_append_dropWhile (p := isDigitOrSeparator) (l := text)).symm
  refine ⟨fraction, exponent, _, _, split, ?_, ?_, isFraction, isExponent, ?_⟩
  · rw [← split]
    exact plain
  · rw [← split]
  · rw [last]

theorem IsDecimal.append {first : Char} {more : List Char} {fraction exponent : Option Part}
    {tail after behind : List Char} (stops : Stops behind)
    (isDecimal : IsDecimal (first :: more) fraction exponent tail after) :
    IsDecimal (first :: more) fraction exponent tail behind where
  plain := by
    have := announced?_append (more ++ (imageOf fraction ++ (imageOf exponent ++ tail)))
      stops (by simpa using isDecimal.plain)
    simpa using this
  isWhole := by
    have := isDecimal.isWhole
    rw [← List.append_assoc (imageOf exponent), ← List.append_assoc (imageOf fraction)] at this ⊢
    exact takeWhile_append_stops isVisible_isDigitOrSeparator _ stops this
  isFraction := by
    have := isDecimal.isFraction
    rw [← List.append_assoc] at this ⊢
    exact isMark_fractionMark.parts_append stops this
  isExponent := isMark_exponentMark.parts_append stops isDecimal.isExponent
  isTail :=
    takeWhile_append_stops isVisible_isIdentifierMiddle [] stops isDecimal.isTail

theorem exists_of_ofText (first : Char) (rest : List Char)
    (starts : isDigitOrSeparator first = true) :
    ∃ more after, rest = more ++ after ∧ (ofText (first :: rest)).image = first :: more ∧
      ∀ ⦃behind : List Char⦄, Stops behind →
        ofText (first :: (more ++ behind)) = ofText (first :: rest) := by
  -- what follows is read again in the same way if nothing in it could go on with the literal
  cases known : announced? (first :: rest) with
  | some radix =>
    cases rest with
    | nil => simp [announced?] at known
    | cons second rest =>
      refine ⟨second :: rest.takeWhile isIdentifierMiddle, rest.dropWhile isIdentifierMiddle,
        ?_, ?_, fun behind stops => ?_⟩
      · rw [List.cons_append, List.takeWhile_append_dropWhile]
      · rw [ofText_of_announced known]
      · have again : announced? (first :: second :: (rest.takeWhile isIdentifierMiddle ++ behind)) =
            some radix := by rw [announced?_cons] at known ⊢; exact known
        rw [List.cons_append, ofText_of_announced known, ofText_of_announced again,
          takeWhile_isIdentifierMiddle stops]
  | none =>
    obtain ⟨fraction, exponent, tail, after, split, isDecimal⟩ := exists_isDecimal known
    have whole : (first :: rest).takeWhile isDigitOrSeparator =
        first :: rest.takeWhile isDigitOrSeparator := List.takeWhile_cons_of_pos starts
    rw [whole] at split isDecimal
    have read : ofText (first :: rest) = _ := split ▸ isDecimal.ofText_eq
    refine ⟨rest.takeWhile isDigitOrSeparator ++ (imageOf fraction ++ (imageOf exponent ++ tail)),
      after, ?_, ?_, fun behind stops => ?_⟩
    · simpa using (List.cons.inj split).2
    · rw [read, image_decimal]
      rfl
    · rw [read, ← (isDecimal.append stops).ofText_eq]
      simp

theorem contextFree_read (first : Char) (rest : List Char)
    (starts : isDigitOrSeparator first = true) :
    ContextFree (fun rest => read (first :: rest)) rest := by
  obtain ⟨more, after, rfl, image, same⟩ := exists_of_ofText first rest starts
  refine .of_append _ ?_ fun behind stops => ?_
  · simp [read, image]
  · simp only [read, same stops]

end NumberLiteral

/-- A number that starts with a separator takes the digit behind it. -/
theorem NumberLiteral.extra_read_pos {digit : Char} {rest : List Char}
    (isDigit : digit.isDigit = true) : 0 < (read ('_' :: digit :: rest)).extra := by
  have plain : announced? ('_' :: digit :: rest) = none := by simp [announced?_cons]
  obtain ⟨fraction, exponent, tail, after, split, isDecimal⟩ := exists_isDecimal plain
  have literal := isDecimal.ofText_eq
  rw [← split] at literal
  rw [read, literal, image_decimal, List.takeWhile_cons_of_pos (by decide),
    List.takeWhile_cons_of_pos (by simp [isDigitOrSeparator, isDigit])]
  simp

end Cadence
