import Cadence.Token.Scan

/-!
# What is read at a position is honest

A reading that fails has found a fault, and one that finds a fault fails, also where a token is kept
in spite of it. Hence the tokens of a file are tainted exactly if an error is reported for them.
No reading yields the end of the input either, so that it is the last token of a file and no other.
-/
namespace Cadence

open Source (File)

namespace Reading

/-- The reading fails exactly if it has found a fault, and it does not pretend that the input
ends. -/
structure IsHonest (reading : Reading) : Prop where
  failed_iff : reading.failed = true ↔ reading.errors ≠ []
  present : reading.lexeme? ≠ some .endOfInput

theorem isHonest_skip (extra : Nat) : (skip extra).IsHonest := by constructor <;> simp [skip]

theorem isHonest_token (extra : Nat) {lexeme : Lexeme} (present : lexeme ≠ .endOfInput) :
    (token extra lexeme).IsHonest := by
  constructor
  · simp [token]
  · simpa [token] using present

theorem isHonest_mark (extra : Nat) (mark : Punctuation) : (Reading.mark extra mark).IsHonest :=
  isHonest_token extra (by simp)

theorem isHonest_fault (text : List Char) (extra : Nat) (found : LexFault) :
    (fault text extra found).IsHonest := by constructor <;> simp [fault]

theorem isHonest_ite {condition : Prop} [Decidable condition] {left right : Reading}
    (first : left.IsHonest) (second : right.IsHonest) :
    (if condition then left else right).IsHonest := by
  split
  · exact first
  · exact second

end Reading

open Reading (isHonest_ite isHonest_skip isHonest_token isHonest_mark isHonest_fault)

theorem isHonest_readLineComment (text : List Char) : (readLineComment text).IsHonest :=
  isHonest_ite (isHonest_skip _) (isHonest_skip _)

theorem isHonest_readBlockComment (text : List Char) : (readBlockComment text).IsHonest :=
  isHonest_ite (isHonest_skip _) (isHonest_fault _ _ _)

theorem isHonest_readDots (text : List Char) : (readDots text).IsHonest := by
  unfold readDots
  split <;> exact isHonest_mark _ _

theorem Lexeme.ofWord_ne_endOfInput (word : String) : ofWord word ≠ .endOfInput := by
  unfold ofWord
  repeat' split
  all_goals simp

/-- Munching drops candidates and shortens others, but it makes up no signs. -/
theorem mem_munch {candidates : List (List Char × Lexeme)} {started : Bool} {text : List Char}
    {spelling : List Char} {lexeme : Lexeme}
    (left : (spelling, lexeme) ∈ (munch candidates started text).2) :
    ∃ whole, (whole, lexeme) ∈ candidates := by
  -- a candidate that is left is an old one without the characters that were read
  induction text generalizing candidates started with
  | nil => exact ⟨spelling, left⟩
  | cons character rest ih =>
    rw [munch] at left
    split at left
    next => exact ⟨spelling, left⟩
    next =>
      split at left
      next => exact ⟨spelling, left⟩
      next =>
        obtain ⟨shorter, advanced⟩ := ih left
        obtain ⟨⟨whole, known⟩, member, kept⟩ := List.mem_filterMap.mp advanced
        refine ⟨whole, ?_⟩
        dsimp only at kept
        split at kept
        next =>
          split at kept
          · cases kept
            exact member
          · cases kept
        next => cases kept

theorem isHonest_readSign (text : List Char) : (readSign text).IsHonest := by
  unfold readSign
  dsimp only
  split
  next spelling lexeme found =>
    obtain ⟨whole, isSign⟩ := mem_munch (List.mem_of_find?_eq_some found)
    refine isHonest_token _ fun isEnd => ?_
    subst isEnd
    simp [signs] at isSign
  next => exact isHonest_fault _ _ _

theorem NumberLiteral.isHonest_read (text : List Char) : (read text).IsHonest := by
  constructor
  · simp [read]
  · simp only [read, lexeme, ne_eq, Option.some.injEq]
    split <;> simp

theorem LiteralBody.isHonest_reading (text : List Char) (kind : LiteralKind) (body : LiteralBody) :
    (body.reading text kind).IsHonest := by
  unfold reading
  split
  · exact isHonest_token _ (by simp)
  · exact isHonest_fault _ _ _
  · exact isHonest_fault _ _ _

theorem isHonest_closeCharacter (text : List Char) (extra : Nat) (character : Char) :
    (closeCharacter text extra character).IsHonest := by
  unfold closeCharacter
  split
  · exact isHonest_fault _ _ _
  · exact isHonest_ite (isHonest_token _ (by simp)) (isHonest_fault _ _ _)

theorem isHonest_readCharacter (text : List Char) : (readCharacter text).IsHonest := by
  unfold readCharacter
  split
  · exact isHonest_fault _ _ _
  · refine isHonest_ite ?_ <| isHonest_ite (isHonest_fault _ _ _) <|
      isHonest_ite (isHonest_fault _ _ _) (isHonest_closeCharacter _ _ _)
    split
    · exact isHonest_fault _ _ _
    · exact isHonest_closeCharacter _ _ _

/-- Reading decides between the readers above by the first characters. -/
theorem Reading.isHonest_ofText (first : Char) (rest : List Char) : (ofText first rest).IsHonest := by
  unfold ofText
  refine isHonest_ite (isHonest_skip _) <| isHonest_ite (isHonest_readLineComment _) <|
    isHonest_ite (isHonest_readBlockComment _) <| isHonest_ite (isHonest_readDots _) <|
      isHonest_ite (isHonest_mark _ _) <| isHonest_ite (NumberLiteral.isHonest_read _) <|
        isHonest_ite (isHonest_token _ (Lexeme.ofWord_ne_endOfInput _)) <|
        isHonest_ite (isHonest_readSign _) <|
          isHonest_ite (NumberLiteral.isHonest_read _) ?_
  split
  · exact isHonest_mark _ _
  · exact isHonest_ite (LiteralBody.isHonest_reading _ _ _) <|
      isHonest_ite (LiteralBody.isHonest_reading _ _ _) <|
        isHonest_ite (isHonest_readCharacter _) <| isHonest_ite (isHonest_token _ (by simp))
          (isHonest_fault _ _ _)

/-- The tokens of a text are tainted exactly if something is reported. -/
theorem Lexed.tainted_iff_ofText (start : Nat) (text : List Char) :
    (ofText start text).tainted = true ↔ (ofText start text).errors ≠ [] := by
  fun_induction ofText start text with
  | case1 => simp
  | case2 start first rest reading taken ih =>
    have honest := (Reading.isHonest_ofText first rest).failed_iff
    simp only [push, Bool.or_eq_true, ih, honest, ne_eq, List.append_eq_nil_iff, List.map_eq_nil_iff,
      reading]
    exact Decidable.not_and_iff_not_or_not.symm

theorem Lexed.tainted_iff (file : File) :
    (ofFile file).tainted = true ↔ (ofFile file).errors ≠ [] :=
  tainted_iff_ofText file.start file.content

/-- The end of the input is the last of the tokens of a text and no other. -/
theorem Lexed.exists_tokens_ofText (start : Nat) (text : List Char) :
    ∃ (front : List Token) (last : Token), (ofText start text).tokens = front ++ [last] ∧
      last.lexeme = .endOfInput ∧ ∀ token ∈ front, token.lexeme ≠ .endOfInput := by
  fun_induction ofText start text with
  | case1 start => exact ⟨[], _, rfl, rfl, by simp⟩
  | case2 start first rest reading taken ih =>
    obtain ⟨front, last, same, isEnd, plain⟩ := ih
    have present := (Reading.isHonest_ofText first rest).present
    simp only [push, same]
    split
    next lexeme found =>
      refine ⟨_ :: front, last, rfl, isEnd, List.forall_mem_cons.mpr ⟨?_, plain⟩⟩
      rintro rfl
      exact present found
    next => exact ⟨front, last, rfl, isEnd, plain⟩

theorem Lexed.exists_tokens (file : File) :
    ∃ (front : List Token) (last : Token), (ofFile file).tokens = front ++ [last] ∧
      last.lexeme = .endOfInput ∧ ∀ token ∈ front, token.lexeme ≠ .endOfInput :=
  exists_tokens_ofText file.start file.content

end Cadence
