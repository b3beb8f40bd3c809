import Cadence.Proofs.Token.Positions
import Mathlib.Data.List.Infix
import Mathlib.Data.List.Nodup

/-!
# The longest sign is read

Munching keeps the signs that go on as the text does. A comment that opens ends it, but no sign has
a slash behind its first character, so that none is missed. As everything that begins a sign is
a sign itself, there is always one whose spelling is taken as a whole.
-/
namespace Cadence

open Source (File Span byteSize)

theorem mem_advance_iff {character : Char} {candidates : List (List Char × Lexeme)}
    {rest : List Char} {lexeme : Lexeme} :
    (rest, lexeme) ∈ advance character candidates ↔ (character :: rest, lexeme) ∈ candidates := by
  rw [advance, List.mem_filterMap]
  constructor
  · rintro ⟨⟨spelling, known⟩, member, kept⟩
    cases spelling with
    | nil => cases kept
    | cons first spelling =>
      dsimp only at kept
      split at kept
      next same =>
        cases kept
        rwa [← same]
      next => cases kept
  · exact fun member => ⟨_, member, if_pos rfl⟩

theorem advance_ne_nil {character : Char} {candidates : List (List Char × Lexeme)}
    {rest : List Char} {lexeme : Lexeme} (member : (character :: rest, lexeme) ∈ candidates) :
    advance character candidates ≠ [] :=
  List.ne_nil_of_mem (mem_advance_iff.mpr member)

/-- Munching leaves what the candidates that begin with the taken characters go on with. -/
theorem mem_munch_iff {candidates : List (List Char × Lexeme)} {started : Bool} {text : List Char}
    {rest : List Char} {lexeme : Lexeme} :
    (rest, lexeme) ∈ (munch candidates started text).2 ↔
      (text.take (munch candidates started text).1 ++ rest, lexeme) ∈ candidates := by
  induction text generalizing candidates started with
  | nil => simp [munch]
  | cons character text ih =>
    rw [munch]
    split
    next => simp
    next =>
      split
      next => simp
      next advanced _ => simp only [ih, ← mem_advance_iff, List.take_succ_cons, List.cons_append]

theorem munch_le_length (candidates : List (List Char × Lexeme)) (started : Bool)
    (text : List Char) : (munch candidates started text).1 ≤ text.length := by
  induction text generalizing candidates started with
  | nil => simp [munch]
  | cons character text ih =>
    rw [munch]
    split
    next => simp
    next =>
      split
      next => simp
      next => simpa using ih _ _

/-- Munching stops at some candidate, not behind all of them. -/
theorem munch_ne_nil {candidates : List (List Char × Lexeme)} (present : candidates ≠ [])
    (started : Bool) (text : List Char) : (munch candidates started text).2 ≠ [] := by
  -- a character is taken only if it leaves a candidate
  induction text generalizing candidates started with
  | nil => exact present
  | cons character text ih =>
    rw [munch]
    split
    next => exact present
    next =>
      split
      next => exact present
      next advanced => exact ih advanced _

/-- The candidates do not go on with what starts a comment. -/
def GoOnWithoutSlash (started : Bool) (candidates : List (List Char × Lexeme)) : Prop :=
  ∀ candidate ∈ candidates, '/' ∉ if started then candidate.1 else candidate.1.tail

theorem GoOnWithoutSlash.advance {candidates : List (List Char × Lexeme)} {started : Bool}
    (noSlash : GoOnWithoutSlash started candidates) (character : Char) :
    GoOnWithoutSlash true (advance character candidates) := by
  rintro ⟨rest, lexeme⟩ member slash
  have := noSlash _ (mem_advance_iff.mp member)
  cases started <;> simp_all

/-- Munching takes at least as much as the spelling of any candidate that the text starts with. -/
theorem length_le_munch {candidates : List (List Char × Lexeme)} {started : Bool}
    (noSlash : GoOnWithoutSlash started candidates) {spelling : List Char} {lexeme : Lexeme}
    (member : (spelling, lexeme) ∈ candidates) {text : List Char} (starts : spelling <+: text) :
    spelling.length ≤ (munch candidates started text).1 := by
  induction text generalizing candidates started spelling with
  | nil => simp [List.prefix_nil.mp starts]
  | cons character text ih =>
    cases spelling with
    | nil => simp
    | cons first spelling =>
      obtain ⟨rfl, goesOn⟩ := List.cons_prefix_cons.mp starts
      -- a comment that opens here would have to start with a character of the candidate
      have noComment : ¬ (started = true ∧ opensComment (first :: text) = true) := by
        rintro ⟨rfl, opens⟩
        rw [opensComment_eq, Bool.and_eq_true, decide_eq_true_eq] at opens
        have := noSlash _ member
        simp [opens.1] at this
      rw [munch, if_neg noComment]
      split
      next none => exact absurd none (advance_ne_nil member)
      next =>
        have := ih (noSlash.advance first) (mem_advance_iff.mpr member) goesOn
        simpa using this

theorem goOnWithoutSlash_signs : GoOnWithoutSlash false signs := by
  have : (signs.all fun sign => !sign.1.tail.contains '/') = true := by decide +kernel
  intro sign member
  simpa using List.all_eq_true.mp this sign member

/-- Every part of a sign from its start is a sign. -/
theorem exists_sign_of_part {part rest : List Char} {lexeme : Lexeme} (present : part ≠ [])
    (isSign : (part ++ rest, lexeme) ∈ signs) : ∃ other, (part, other) ∈ signs := by
  have closed : (signs.all fun sign => sign.1.inits.all fun part =>
      part.isEmpty || signs.any fun other => other.1 = part) = true := by decide +kernel
  have known := List.all_eq_true.mp (List.all_eq_true.mp closed _ isSign) part
    ((List.mem_inits _ _).mpr (List.prefix_append part rest))
  simpa [present] using known

/-- Every character that a sign may start with is a sign. -/
theorem exists_sign_of_start {character : Char} (starts : isSignStart character = true) :
    ∃ lexeme, ([character], lexeme) ∈ signs := by
  have known : ∀ sign ∈ ['+', '-', '*', '/', '%', '\\', '&', '|', '~', '<', '>', '=', '!', '^'],
      (signs.any fun other => other.1 = [sign]) = true :=
    List.all_iff_forall_prop.mp (by decide +kernel)
  simpa using known character (List.contains_iff_mem.mp starts)

theorem nodup_spellings : (signs.map Prod.fst).Nodup := by decide +kernel

/-- Of the signs that the text starts with, this one is longer than all others. -/
structure IsLongestSign (text spelling : List Char) (lexeme : Lexeme) : Prop where
  isSign : (spelling, lexeme) ∈ signs
  starts : spelling <+: text
  longest : ∀ sign ∈ signs, sign.1 <+: text → sign ≠ (spelling, lexeme) →
    sign.1.length < spelling.length

theorem IsLongestSign.ne_nil {text spelling : List Char} {lexeme : Lexeme}
    (isLongest : IsLongestSign text spelling lexeme) : spelling ≠ [] := by
  have visible := List.all_eq_true.mp signs_visible _ isLongest.isSign
  rw [Bool.and_eq_true] at visible
  simpa using visible.1

/-- Reading a sign yields the longest sign that the text starts with. -/
theorem exists_of_readSign {first : Char} (rest : List Char) (starts : isSignStart first = true) :
    ∃ spelling lexeme, IsLongestSign (first :: rest) spelling lexeme ∧
      readSign (first :: rest) = .token (spelling.length - 1) lexeme := by
  have all {spelling : List Char} {lexeme : Lexeme} (isSign : (spelling, lexeme) ∈ signs)
      (starts : spelling <+: first :: rest) :
      spelling.length ≤ (munch signs false (first :: rest)).1 :=
    length_le_munch goOnWithoutSlash_signs isSign starts
  have size : ((first :: rest).take (munch signs false (first :: rest)).1).length =
      (munch signs false (first :: rest)).1 :=
    List.length_take_of_le (munch_le_length signs false (first :: rest))
  -- one character is taken at least, and what is taken begins some sign
  obtain ⟨single, isSingle⟩ := exists_sign_of_start starts
  have positive : 1 ≤ (munch signs false (first :: rest)).1 := all isSingle (by simp)
  obtain ⟨⟨more, whole⟩, left⟩ := List.exists_mem_of_ne_nil _
    (munch_ne_nil (List.ne_nil_of_mem isSingle) false (first :: rest))
  obtain ⟨other, isOther⟩ := exists_sign_of_part
    (List.ne_nil_of_length_pos (by omega)) (mem_munch_iff.mp left)
  have complete : ([], other) ∈ (munch signs false (first :: rest)).2 :=
    mem_munch_iff.mpr (by rwa [List.append_nil])
  cases found : (munch signs false (first :: rest)).2.find? fun candidate => candidate.1.isEmpty with
  | none => simpa using List.find?_eq_none.mp found _ complete
  | some candidate =>
    obtain ⟨spelling, lexeme⟩ := candidate
    obtain rfl : spelling = [] := by simpa using List.find?_some found
    have isSign := mem_munch_iff.mp (List.mem_of_find?_eq_some found)
    rw [List.append_nil] at isSign
    refine ⟨_, lexeme, ⟨isSign, List.take_prefix _ _, fun sign known begins differs => ?_⟩, ?_⟩
    · -- a sign of the same length would be spelled in the same way, and no other sign is
      have atMost : sign.1.length ≤ _ := all known begins
      refine Nat.lt_of_le_of_ne (size.symm ▸ atMost) fun same => differs ?_
      have spelled := List.prefix_of_prefix_length_le begins (List.take_prefix _ _) (Nat.le_of_eq same)
      exact List.inj_on_of_nodup_map nodup_spellings known isSign (spelled.eq_of_length same)
    · rw [readSign_of_some found, size]

namespace Reading

/-- The reading finds no fault of the class. -/
def ReportsNo (code : ErrorCode) (reading : Reading) : Prop :=
  ∀ error ∈ reading.errors, error.fault.code ≠ code

variable {code : ErrorCode}

theorem reportsNo_skip (extra : Nat) : (skip extra).ReportsNo code := by simp [ReportsNo, skip]

theorem reportsNo_token (extra : Nat) (lexeme : Lexeme) : (token extra lexeme).ReportsNo code := by
  simp [ReportsNo, token]

theorem reportsNo_fault (text : List Char) (extra : Nat) {found : LexFault}
    (other : found.code ≠ code) : (fault text extra found).ReportsNo code := by
  simpa [ReportsNo, fault] using other

theorem reportsNo_ite {condition : Prop} [Decidable condition] {left right : Reading}
    (first : left.ReportsNo code) (second : right.ReportsNo code) :
    (if condition then left else right).ReportsNo code := by
  split
  · exact first
  · exact second

theorem reportsNo_number (text : List Char) :
    (NumberLiteral.read text).ReportsNo .e006 := by
  intro error member
  simp only [NumberLiteral.read, NumberLiteral.errors, List.mem_append] at member
  rcases member with (isSeparator | isDigit) | isMissing
  · rw [NumberLiteral.code_of_mem_separators isSeparator]
    decide
  · rw [NumberLiteral.code_of_mem_digits isDigit]
    decide
  · split at isMissing
    · rw [List.mem_singleton.mp isMissing]
      simp [LexFault.code]
    · cases isMissing

theorem reportsNo_literal (text : List Char) (kind : LiteralKind) (body : LiteralBody) :
    (body.reading text kind).ReportsNo .e006 := by
  unfold LiteralBody.reading
  split
  · exact reportsNo_token _ _
  · exact reportsNo_fault _ _ (by simp [LexFault.code])
  · exact reportsNo_fault _ _ (by simp [LexFault.code])

theorem reportsNo_closeCharacter (text : List Char) (extra : Nat) (character : Char) :
    (closeCharacter text extra character).ReportsNo .e006 := by
  unfold closeCharacter
  split
  · exact reportsNo_fault _ _ (by simp [LexFault.code])
  · exact reportsNo_ite (reportsNo_token _ _) (reportsNo_fault _ _ (by simp [LexFault.code]))

theorem reportsNo_character (text : List Char) : (readCharacter text).ReportsNo .e006 := by
  unfold readCharacter
  split
  · exact reportsNo_fault _ _ (by simp [LexFault.code])
  · refine reportsNo_ite ?_ <| reportsNo_ite (reportsNo_fault _ _ (by simp [LexFault.code])) <|
      reportsNo_ite (reportsNo_fault _ _ (by simp [LexFault.code])) (reportsNo_closeCharacter _ _ _)
    split
    · exact reportsNo_fault _ _ (by simp [LexFault.code])
    · exact reportsNo_closeCharacter _ _ _

/-- A sign that is read is one of the table, and the other readers report none as invalid. -/
theorem reportsNo_ofText (first : Char) (rest : List Char) : (ofText first rest).ReportsNo .e006 := by
  have chosen := isChosen_ofText first rest
  generalize ofText first rest = reading at chosen ⊢
  cases chosen with
  | blank => exact reportsNo_skip 0
  | lineComment => exact reportsNo_ite (reportsNo_skip _) (reportsNo_skip _)
  | blockComment =>
    exact reportsNo_ite (reportsNo_skip _) (reportsNo_fault _ _ (by simp [LexFault.code]))
  | dots =>
    unfold readDots
    split <;> exact reportsNo_token _ _
  | uninitialized => exact reportsNo_token _ _
  | number => exact reportsNo_number _
  | word => exact reportsNo_token _ _
  | sign starts =>
    -- the fault would be reported here if no candidate were complete
    obtain ⟨spelling, lexeme, -, isToken⟩ := exists_of_readSign rest starts.1
    rw [isToken]
    exact reportsNo_token _ _
  | mark => exact reportsNo_token _ _
  | string => exact reportsNo_literal _ _ _
  | verbatimString => exact reportsNo_literal _ _ _
  | character => exact reportsNo_character _
  | directive => exact reportsNo_token _ _
  | stray => exact reportsNo_fault _ _ (by simp [LexFault.code])

end Reading

/-- Wherever reading comes to a sign, it takes the longest sign that the rest of the text starts
with, also in front of a comment, and makes one token of it. No sign is ever reported as invalid. -/
theorem signs_are_read_at_full_length (file : File) :
    (∀ front behind, Lexed.ComesTo file.content front behind → StartsSign behind →
      ∃ spelling lexeme after, IsLongestSign behind spelling lexeme ∧ behind = spelling ++ after ∧
        Lexed.ComesTo file.content (front ++ spelling) after ∧
        (Lexed.ofFile file).tokensIn (spanOf (file.start + byteSize front) spelling) =
          [⟨lexeme, spanOf (file.start + byteSize front) spelling, String.ofList spelling⟩]) ∧
    ∀ error ∈ (Lexed.ofFile file).errors, error.fault.code ≠ .e006 := by
  constructor
  · intro front behind comes starts
    cases behind with
    | nil => cases starts
    | cons first rest =>
      obtain ⟨spelling, lexeme, isLongest, isToken⟩ := exists_of_readSign rest starts.1
      have isRead := (Reading.ofText_of_startsSign starts).trans isToken
      obtain ⟨after, split⟩ := isLongest.starts
      cases spelling with
      | nil => exact absurd rfl isLongest.ne_nil
      | cons letter more =>
        obtain ⟨rfl, rfl⟩ := List.cons.inj split
        obtain ⟨next, tokens, -⟩ := comes.found isRead rfl file.start
        exact ⟨letter :: more, lexeme, after, isLongest, rfl, next, tokens⟩
  · intro error member
    obtain ⟨front, first, rest, -, found⟩ := (Lexed.exists_comesTo _ _).2 error member
    obtain ⟨own, isOwn, rfl⟩ := List.mem_map.mp found
    exact Reading.reportsNo_ofText first rest own isOwn

/-- A shift in front of a comment: the sign is not `<`, and the comment is not part of it. -/
theorem shift_is_read_at_full_length :
    Lexed.ComesTo "<</* */=".toList [] "<</* */=".toList ∧ StartsSign "<</* */=".toList ∧
      (Lexed.ofFile ⟨.anonymous, "<</* */=".toList, 1⟩).tokensIn ⟨1, 3⟩ =
        [⟨.operator .shiftLeft, ⟨1, 3⟩, "<<"⟩] := by
  have starts : StartsSign "<</* */=".toList := ⟨by decide, by decide, by decide⟩
  obtain ⟨spelling, lexeme, after, isLongest, -, -, tokens⟩ :=
    (signs_are_read_at_full_length ⟨.anonymous, "<</* */=".toList, 1⟩).1 [] _ .start starts
  have short : ∀ sign ∈ signs, sign.1.isPrefixOf "<</* */=".toList = true → sign.1.length ≤ 2 := by
    decide +kernel
  have atMost := short _ isLongest.isSign (List.isPrefixOf_iff_prefix.mpr isLongest.starts)
  have same : ("<<".toList, .operator .shiftLeft) = (spelling, lexeme) := by
    by_contra differs
    have longer : 2 < spelling.length := isLongest.longest _ (by decide) (by decide) differs
    exact absurd longer (Nat.not_lt.mpr atMost)
  obtain ⟨rfl, rfl⟩ := Prod.mk.inj same
  exact ⟨.start, starts, tokens⟩

end Cadence
