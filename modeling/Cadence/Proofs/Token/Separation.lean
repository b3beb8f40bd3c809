import Cadence.Proofs.Token.Numbers

/-!
# Tokens that are moved apart

The tokens of a file are read again from their images alone, whatever white space is put between
them.
-/
namespace Cadence

open Source (File FileName byteSize)
open Text (isBlank)

theorem lexeme_readLineComment (text : List Char) : (readLineComment text).lexeme? = none := by
  unfold readLineComment
  dsimp only
  split <;> rfl

theorem lexeme_readBlockComment (text : List Char) : (readBlockComment text).lexeme? = none := by
  unfold readBlockComment
  dsimp only
  split <;> rfl

theorem contextFree_mark (mark : Punctuation) (rest : List Char) :
    ContextFree (fun _ => Reading.mark 0 mark) rest := .of_append [] rfl fun _ _ => rfl

/-- Visible characters that a text starts with come before white space. -/
theorem prefix_of_append_stops {marks more behind : List Char} (stops : Stops behind)
    (visible : ∀ mark ∈ marks, isBlank mark = false) (starts : marks <+: more ++ behind) :
    marks <+: more := by
  induction marks generalizing more with
  | nil => exact List.nil_prefix
  | cons mark marks ih =>
    obtain ⟨isVisible, visible⟩ := List.forall_mem_cons.mp visible
    cases more with
    | nil =>
      obtain ⟨rest, rfl⟩ := starts
      exact absurd stops.of_cons (by simp [isVisible])
    | cons first more =>
      rw [List.cons_append, List.cons_prefix_cons] at starts
      exact List.cons_prefix_cons.mpr ⟨starts.1, ih visible starts.2⟩

/-- Three minus signs are one token, and any sign may start otherwise. -/
theorem ContextFree.ite_uninitialized {first : Char} {rest : List Char}
    {right : List Char → Reading}
    (other : ContextFree right rest) :
    ContextFree (fun rest => if ['-', '-', '-'].isPrefixOf (first :: rest) = true
      then Reading.mark 2 .uninitialized else right rest) rest := by
  have visible : isBlank '-' = false := by decide
  simp only [List.isPrefixOf_iff_prefix, List.cons_prefix_cons]
  refine .ite (fun starts => ?_) (fun _ => other) (fun more after behind stops starts => ?_)
    fun more after starts _ size behind => ?_
  · obtain ⟨-, after, rfl⟩ := starts
    exact .of_append _ rfl fun _ _ => rfl
  · have := prefix_of_append_stops stops (by simp [visible]) starts.2
    exact ⟨starts.1, this.trans (List.prefix_append _ _)⟩
  · have : ['-', '-'] = more := by
      obtain ⟨-, rest, split⟩ := starts
      exact List.append_inj_left split size.symm
    exact ⟨starts.1, this ▸ List.prefix_append _ _⟩

theorem isVisible_eq {mark : Char} (visible : isBlank mark = false) :
    IsVisible fun character => decide (character = mark) :=
  fun _ blank => decide_eq_false (ne_of_isBlank blank mark visible)

/-- Which reader is chosen does not depend on the characters behind the token either. -/
theorem Reading.contextFree_ofText (first : Char) (rest : List Char) :
    ContextFree (ofText first) rest := by
  have number (starts : first.isDigit = true ∨ first = digitSeparator) :=
    NumberLiteral.contextFree_read first rest (by simpa [isDigitOrSeparator] using starts)
  unfold ofText
  refine .ite_const (fun _ => .of_none rfl) fun _ => ?_
  -- comments yield no token, so that nothing has to be read again
  refine .ite_second (isVisible_eq (by decide)) (fun _ => .of_none (lexeme_readLineComment _))
    (fun _ => ?_) fun _ _ _ _ present => absurd (lexeme_readLineComment _) present
  refine .ite_second (isVisible_eq (by decide)) (fun _ => .of_none (lexeme_readBlockComment _))
    (fun _ => ?_) fun _ _ _ _ present => absurd (lexeme_readBlockComment _) present
  refine .ite_const (fun isDot => isDot ▸ contextFree_readDots rest) fun _ => ?_
  refine .ite_uninitialized ?_
  -- a separator starts a number in front of a digit, and a name otherwise
  refine .ite_second (fun _ => not_isDigit_of_isBlank)
    (fun isSeparator => number (.inr isSeparator)) (fun _ => ?_) fun digit rest isSeparator isDigit _ => ?separator
  case separator =>
    subst isSeparator
    exact NumberLiteral.extra_read_pos isDigit
  refine .ite_const (fun _ => contextFree_readWord first rest) fun _ => ?_
  refine .ite_const (fun _ => contextFree_readSign first rest) fun _ => ?_
  refine .ite_const (fun isDigit => number (.inl isDigit)) fun _ => ?_
  split
  next mark _ => exact contextFree_mark mark rest
  next =>
    refine .ite_const (fun _ => contextFree_readString first rest) fun _ => ?_
    refine .ite_const (fun _ => contextFree_readVerbatimString first rest) fun _ => ?_
    refine .ite_const (fun _ => contextFree_readCharacter first rest) fun _ => ?_
    refine .ite_second (fun _ => not_isIdentifierStart_of_isBlank)
      (fun _ => contextFree_readDirective first rest) (fun _ => .of_none rfl) ?_
    intro second rest _ starts _
    simp [readDirective, Reading.token, isIdentifierMiddle_of_start starts]

/-- The token without its place. -/
def Token.bare (token : Token) : Lexeme × String := (token.lexeme, token.image)

/-- The token is read from its image wherever white space or nothing follows. -/
def Token.Recurs (token : Token) : Prop :=
  ∃ first more, token.image.toList = first :: more ∧ ∀ ⦃behind : List Char⦄, Stops behind →
    (Reading.ofText first (more ++ behind)).lexeme? = some token.lexeme ∧
      (Reading.ofText first (more ++ behind)).extra = more.length

namespace Lexed

theorem recurs_of_mem (start : Nat) (text : List Char) :
    ∀ token ∈ (ofText start text).tokens, token.lexeme ≠ .endOfInput → token.Recurs := by
  fun_induction ofText start text with
  | case1 => simp
  | case2 start first rest reading taken ih =>
    simp only [push]
    split
    next lexeme found =>
      refine List.forall_mem_cons.mpr ⟨fun _ => ?_, ih⟩
      obtain ⟨more, after, split, size, same⟩ :=
        Reading.contextFree_ofText first rest (by simp only [reading] at found; simp [found])
      refine ⟨first, more, ?_, fun behind stops => ?_⟩
      · simp only [taken, reading, ← size, String.toList_ofList]
        rw [split, List.take_left]
      · rw [same stops]
        exact ⟨found, size.symm⟩
    next => exact ih

theorem bare_ofText_append {token : Token} (recurs : token.Recurs) (start : Nat)
    {behind : List Char} (stops : Stops behind) :
    (ofText start (token.image.toList ++ behind)).tokens.map Token.bare =
      token.bare ::
        (ofText (start + byteSize token.image.toList) behind).tokens.map Token.bare := by
  obtain ⟨first, more, image, reads⟩ := recurs
  obtain ⟨found, size⟩ := reads stops
  rw [image, List.cons_append, ofText]
  simp only [push, found, size, List.take_left, List.drop_left, List.map_cons]
  simp [Token.bare, ← image]

theorem bare_ofText_alone {token : Token} (recurs : token.Recurs) (start : Nat) :
    (ofText start token.image.toList).tokens.map Token.bare =
      [token.bare, (.endOfInput, "")] := by
  have alone := bare_ofText_append recurs start (show Stops [] from nofun)
  rw [List.append_nil] at alone
  rw [alone, ofText]
  rfl

theorem tokens_ofText_append {gap : List Char} (blank : ∀ character ∈ gap, isBlank character = true)
    (start : Nat) (text : List Char) :
    (ofText start (gap ++ text)).tokens = (ofText (start + byteSize gap) text).tokens := by
  induction gap generalizing start with
  | nil => simp
  | cons first gap ih =>
    obtain ⟨isBlank, blank⟩ := List.forall_mem_cons.mp blank
    have skipped : Reading.ofText first (gap ++ text) = .skip 0 := if_pos isBlank
    rw [List.cons_append, ofText]
    simp only [push, skipped, Reading.skip, List.take_zero, List.drop_zero, ih blank]
    simp [Nat.add_assoc]

end Lexed

/-- Images with a gap behind each of them but the last. -/
def separated (gaps : Nat → List Char) : List String → List Char
  | [] => []
  | [image] => image.toList
  | image :: next :: rest =>
    image.toList ++ (gaps 0 ++ separated (fun index => gaps (index + 1)) (next :: rest))

/-- White space that is not empty. -/
def IsGap (gap : List Char) : Prop := gap ≠ [] ∧ ∀ character ∈ gap, isBlank character = true

theorem IsGap.stops {gap : List Char} (isGap : IsGap gap) (text : List Char) :
    Stops (gap ++ text) := by
  cases gap with
  | nil => exact absurd rfl isGap.1
  | cons first gap =>
    rintro _ ⟨⟩
    exact isGap.2 first List.mem_cons_self

theorem Lexed.bare_separated {gaps : Nat → List Char} (areGaps : ∀ index, IsGap (gaps index))
    {tokens : List Token} (recur : ∀ token ∈ tokens, token.Recurs) (start : Nat) :
    (ofText start (separated gaps (tokens.map Token.image))).tokens.map Token.bare =
      tokens.map Token.bare ++ [(Lexeme.endOfInput, "")] := by
  induction tokens generalizing gaps start with
  | nil => simp [separated, ofText, Token.bare]
  | cons token rest ih =>
    obtain ⟨recurs, recur⟩ := List.forall_mem_cons.mp recur
    cases rest with
    | nil => exact bare_ofText_alone recurs start
    | cons next rest =>
      have others := ih (fun index => areGaps (index + 1)) recur
      rw [List.map_cons, List.map_cons, separated,
        bare_ofText_append recurs start ((areGaps 0).stops _), tokens_ofText_append (areGaps 0).2]
      exact congrArg (token.bare :: ·) (others _)

/-- The images of the tokens of a file, the end of the input left out. -/
def Lexed.images (lexed : Lexed) : List String :=
  (lexed.tokens.filter fun token => token.lexeme ≠ .endOfInput).map Token.image

/-- The images of the tokens of a file, with any white space between them, are the same tokens, and
each of them is one token alone. -/
theorem tokens_are_context_free (file : File) (name : FileName) (start : Nat) :
    (∀ gaps : Nat → List Char, (∀ index, IsGap (gaps index)) →
      (Lexed.ofFile ⟨name, separated gaps (Lexed.ofFile file).images, start⟩).tokens.map
        Token.bare = (Lexed.ofFile file).tokens.map Token.bare) ∧
    ∀ token ∈ (Lexed.ofFile file).tokens, token.lexeme ≠ .endOfInput →
      (Lexed.ofFile ⟨name, token.image.toList, start⟩).tokens.map Token.bare =
        [token.bare, (.endOfInput, "")] := by
  have recur : ∀ token ∈ (Lexed.ofFile file).tokens, _ → token.Recurs :=
    Lexed.recurs_of_mem file.start file.content
  refine ⟨fun gaps areGaps => ?_, fun token member present =>
    Lexed.bare_ofText_alone (recur token member present) start⟩
  -- the end of the input is the last token and no other one
  obtain ⟨front, same, proper⟩ := (Lexed.laidOut_ofText file.start file.content).exists_front
  have same : (Lexed.ofFile file).tokens = _ := same
  have images : (Lexed.ofFile file).images = front.map Token.image := by
    have kept : front.filter (fun token => token.lexeme ≠ .endOfInput) = front :=
      List.filter_eq_self.mpr fun token member => decide_eq_true (proper token member).1
    rw [Lexed.images, same, List.filter_append, kept]
    simp
  rw [images, same, List.map_append]
  exact Lexed.bare_separated areGaps (fun token member =>
    recur token (same ▸ List.mem_append_left _ member) (proper token member).1) start

/-- A sum without white space, and the same sum with some. -/
theorem sum_is_context_free :
    (∀ index : Nat, IsGap ((fun _ => [' ']) index)) ∧
    (Lexed.ofFile ⟨.anonymous, "a + 1".toList, 1⟩).tokens.map Token.bare =
      (Lexed.ofFile ⟨.anonymous, "a+1".toList, 1⟩).tokens.map Token.bare := by
  have areGaps : ∀ index : Nat, IsGap ((fun _ => [' ']) index) := fun _ =>
    ⟨List.cons_ne_nil _ _, List.forall_mem_singleton.mpr (by decide)⟩
  have separates : separated (fun _ => [' ']) (Lexed.ofFile ⟨.anonymous, "a+1".toList, 1⟩).images =
      "a + 1".toList := by decide +kernel
  have same := (tokens_are_context_free ⟨.anonymous, "a+1".toList, 1⟩ .anonymous 1).1 _ areGaps
  exact ⟨areGaps, separates ▸ same⟩

end Cadence
