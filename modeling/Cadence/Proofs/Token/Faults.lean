import Cadence.Proofs.Token.Layout
import Cadence.Proofs.Token.Numbers
import Mathlib.Data.List.TakeWhile

/-!
# Where the faults of a text lie

Every fault that is found in the characters of a text lies under a part of it that is not empty, and
no two faults of one class start at the same place. Most readings find one fault at most, under all
that they take. A number literal may be wrong in many places: its groups of digits follow each other
in its image, and so do the misplaced separators and the invalid digits in them.
-/
namespace Cadence

open Source (File Span byteSize byteSize_append)

theorem LiesUnder.append {start : Nat} {text part : List Char} {span : Span}
    (lies : LiesUnder start text span part) (behind : List Char) :
    LiesUnder start (text ++ behind) span part := by
  obtain ⟨before, rest, rfl, rfl⟩ := lies
  exact ⟨before, rest ++ behind, by simp, rfl⟩

theorem LiesUnder.shift {start : Nat} {text part : List Char} {span : Span}
    (lies : LiesUnder start text span part) (amount : Nat) :
    LiesUnder (amount + start) text (span.shift amount) part := by
  obtain ⟨before, rest, rfl, rfl⟩ := lies
  exact ⟨before, rest, rfl, by simp [Span.shift]; omega⟩

/-- All of a text lies under the span from its start to its end. -/
theorem LiesUnder.refl (start : Nat) (text : List Char) :
    LiesUnder start text ⟨start, start + byteSize text⟩ text :=
  ⟨[], [], by simp, by simp⟩

/-- The span is that of a part of the text that is not empty. -/
def IsUnder (start : Nat) (text : List Char) (span : Span) : Prop :=
  ∃ part, part ≠ [] ∧ LiesUnder start text span part

namespace IsUnder

variable {start : Nat} {text : List Char} {span : Span}

theorem prepend {piece : List Char} (under : IsUnder (start + byteSize piece) text span) :
    IsUnder start (piece ++ text) span :=
  under.imp fun _ known => ⟨known.1, known.2.prepend⟩

theorem append (under : IsUnder start text span) (behind : List Char) :
    IsUnder start (text ++ behind) span :=
  under.imp fun _ known => ⟨known.1, known.2.append behind⟩

theorem shift (under : IsUnder start text span) (amount : Nat) :
    IsUnder (amount + start) text (span.shift amount) :=
  under.imp fun _ known => ⟨known.1, known.2.shift amount⟩

theorem of_ne_nil (present : text ≠ []) : IsUnder start text ⟨start, start + byteSize text⟩ :=
  ⟨text, present, .refl start text⟩

/-- The span starts within the text. -/
theorem bounds (under : IsUnder start text span) :
    start ≤ span.start ∧ span.start < start + byteSize text := by
  obtain ⟨part, present, lies⟩ := under
  have size := Source.byteSize_pos present
  have := lies.bounds
  omega

end IsUnder

/-- The faults lie in the text and start one behind the other. -/
structure FollowEachOther (start : Nat) (text : List Char) (errors : List LexError) : Prop where
  under : ∀ error ∈ errors, IsUnder start text error.span
  increasing : errors.Pairwise fun earlier later => earlier.span.start < later.span.start

namespace FollowEachOther

variable {start : Nat} {text : List Char} {errors : List LexError}

theorem nil (start : Nat) (text : List Char) : FollowEachOther start text [] := ⟨by simp, .nil⟩

theorem singleton (start : Nat) (fault : LexFault) (present : text ≠ []) :
    FollowEachOther start text [⟨fault, start, start + byteSize text⟩] :=
  ⟨by simpa using .of_ne_nil present, List.pairwise_singleton _ _⟩

theorem concat {behind : List Char} {others : List LexError}
    (first : FollowEachOther start text errors)
    (second : FollowEachOther (start + byteSize text) behind others) :
    FollowEachOther start (text ++ behind) (errors ++ others) := by
  refine ⟨List.forall_mem_append.mpr ⟨fun error member => ?_, fun error member => ?_⟩,
    List.pairwise_append.mpr ⟨first.increasing, second.increasing, fun error isEarlier other isLater => ?_⟩⟩
  · exact (first.under error member).append behind
  · exact (second.under error member).prepend
  · have := (first.under error isEarlier).bounds
    have := (second.under other isLater).bounds
    omega

end FollowEachOther

namespace DigitGroup

theorem byteSize_separators {run : List Char} (separators : ∀ digit ∈ run, digit = digitSeparator) :
    byteSize run = digitSeparator.utf8Size * run.length := by
  induction run with
  | nil => rfl
  | cons digit rest ih =>
    have isSeparator := separators digit List.mem_cons_self
    have later := ih fun other member => separators other (List.mem_cons_of_mem digit member)
    rw [Source.byteSize_cons, later, isSeparator, List.length_cons, Nat.mul_succ, Nat.add_comm]

theorem follow_separatorErrors (inside : Bool) (start : Nat) (digits : List Char) :
    FollowEachOther start digits (separatorErrors inside start digits) := by
  fun_induction separatorErrors inside start digits with
  | case1 => exact .nil _ _
  | case2 inside start rest run others stop error ih =>
    -- the run of separators lies in front of what the induction is about
    have cut : digitSeparator :: rest = (digitSeparator :: run) ++ others :=
      congrArg (digitSeparator :: ·) List.takeWhile_append_dropWhile.symm
    have size : stop = start + byteSize (digitSeparator :: run) := by
      rw [byteSize_separators]
      · rfl
      · refine List.forall_mem_cons.mpr ⟨rfl, fun other member => ?_⟩
        have separates := List.mem_takeWhile_imp member
        exact of_decide_eq_true separates
    have single (place : SeparatorPlace) :
        FollowEachOther start (digitSeparator :: run) (error place) := by
      have found := FollowEachOther.singleton start (.misplacedSeparator place)
        (List.cons_ne_nil digitSeparator run)
      rwa [← size] at found
    rw [cut]
    refine .concat ?_ (size ▸ ih)
    repeat' split
    · exact single _
    · exact single _
    · exact single _
    · exact .nil _ _
  | case3 inside start digit rest other ih =>
    exact (FollowEachOther.nil start [digit]).concat (by simpa using ih)

theorem follow_digitErrors (radix : Radix) (literal : String) (start : Nat) (digits : List Char) :
    FollowEachOther start digits (digitErrors radix literal start digits) := by
  fun_induction digitErrors radix literal start digits with
  | case1 => exact .nil _ _
  | case2 start digit rest stop valid ih =>
    exact (FollowEachOther.nil start [digit]).concat (by simpa [stop] using ih)
  | case3 start digit rest stop invalid ih =>
    have found := FollowEachOther.singleton start (.invalidDigit digit radix literal)
      (List.cons_ne_nil digit [])
    exact FollowEachOther.concat (by simpa [stop] using found) (by simpa [stop] using ih)

end DigitGroup

/-- The groups of digits follow each other in a text. -/
inductive GroupsIn : Nat → List Char → List DigitGroup → Prop where
  | nil {start : Nat} {text : List Char} : GroupsIn start text []
  | group {start : Nat} {gap digits behind : List Char} {groups : List DigitGroup}
      (rest : GroupsIn (start + byteSize (gap ++ digits)) behind groups) :
      GroupsIn start (gap ++ digits ++ behind) (⟨start + byteSize gap, digits⟩ :: groups)

theorem GroupsIn.follow {start : Nat} {text : List Char} {groups : List DigitGroup}
    (groupsIn : GroupsIn start text groups) {errors : Nat → List Char → List LexError}
    (follow : ∀ start digits, FollowEachOther start digits (errors start digits)) :
    FollowEachOther start text (groups.flatMap fun group => errors group.start group.digits) := by
  induction groupsIn with
  | nil => exact .nil _ _
  | @group start gap digits behind groups _ ih =>
    have first := (FollowEachOther.nil start gap).concat (follow (start + byteSize gap) digits)
    exact first.concat ih

namespace NumberLiteral

theorem groupsIn_groupsOf (start : Nat) (parts : List Part) (tail : List Char) :
    GroupsIn start (parts.flatMap Part.image ++ tail) (extendLast tail (groupsOf start parts)) := by
  induction parts generalizing start with
  | nil => exact .nil
  | cons part rest ih =>
    cases rest with
    | nil =>
      have last := @GroupsIn.group start part.mark (part.digits ++ tail) [] [] .nil
      simpa [groupsOf, extendLast, Part.image] using last
    | cons next others =>
      have first := @GroupsIn.group start part.mark part.digits _ _ (ih (start + byteSize part.image))
      simpa [groupsOf, extendLast, Part.image] using first

theorem groupsIn_ofText (text : List Char) :
    GroupsIn 0 (ofText text).image (ofText text).groups := by
  unfold ofText
  split
  next radix known =>
    have group := @GroupsIn.group 0 (text.take 2) ((text.drop 2).takeWhile isIdentifierMiddle) [] []
      .nil
    simpa using group
  next => exact groupsIn_groupsOf 0 _ _

/-- The groups behind the prefix of a radix do not start at the start of the literal. -/
theorem prefix_of_radix {text : List Char} (other : (ofText text).radix ≠ .decimal) :
    (ofText text).image ≠ [] ∧ ∀ group ∈ (ofText text).groups, 0 < group.start := by
  unfold ofText at other ⊢
  split at other
  next radix known =>
    have present : text.take 2 ≠ [] := by
      intro none
      rw [(List.take_eq_nil_iff.mp none).resolve_left (by decide)] at known
      cases known
    refine ⟨List.append_ne_nil_of_left_ne_nil present _, fun group member => ?_⟩
    rw [List.mem_singleton.mp member]
    exact Source.byteSize_pos present
  next => exact absurd rfl other

end NumberLiteral

/-- The faults start at different places or are of different classes. -/
def LexError.Differs (error other : LexError) : Prop :=
  error.span.start = other.span.start → error.fault.code ≠ other.fault.code

theorem DigitGroup.code_separatorErrors (inside : Bool) (start : Nat) (digits : List Char) :
    ∀ error ∈ separatorErrors inside start digits, error.fault.code = .e003 := by
  fun_induction separatorErrors inside start digits with
  | case1 => simp
  | case2 inside start rest run others stop error ih =>
    refine List.forall_mem_append.mpr ⟨?_, ih⟩
    repeat' split
    all_goals simp [error, LexFault.code]
  | case3 inside start digit rest other ih => exact ih

theorem DigitGroup.code_digitErrors (radix : Radix) (literal : String) (start : Nat)
    (digits : List Char) :
    ∀ error ∈ digitErrors radix literal start digits, error.fault.code = .e002 := by
  fun_induction digitErrors radix literal start digits with
  | case1 => simp
  | case2 start digit rest stop valid ih => exact ih
  | case3 start digit rest stop invalid ih => exact List.forall_mem_cons.mpr ⟨rfl, ih⟩

theorem FollowEachOther.differ {start : Nat} {text : List Char} {errors : List LexError}
    (follow : FollowEachOther start text errors) : errors.Pairwise LexError.Differs :=
  follow.increasing.imp fun less same => absurd same (Nat.ne_of_lt less)

namespace NumberLiteral

/-- The misplaced separators in some groups are faults of one class. -/
theorem code_of_mem_separators {groups : List DigitGroup} {error : LexError}
    (member : error ∈ groups.flatMap fun group =>
      DigitGroup.separatorErrors false group.start group.digits) : error.fault.code = .e003 := by
  obtain ⟨_, -, found⟩ := List.mem_flatMap.mp member
  exact DigitGroup.code_separatorErrors _ _ _ _ found

/-- The invalid digits in some groups are faults of one class. -/
theorem code_of_mem_digits {radix : Radix} {literal : String} {groups : List DigitGroup}
    {error : LexError}
    (member : error ∈ groups.flatMap fun group =>
      DigitGroup.digitErrors radix literal group.start group.digits) : error.fault.code = .e002 := by
  obtain ⟨_, -, found⟩ := List.mem_flatMap.mp member
  exact DigitGroup.code_digitErrors _ _ _ _ _ found

/-- No two faults of a number literal are the same, and all of them lie in it. -/
theorem errors_ofText (text : List Char) :
    (∀ error ∈ (ofText text).errors, IsUnder 0 (ofText text).image error.span) ∧
      (ofText text).errors.Pairwise LexError.Differs := by
  have groupsIn := groupsIn_ofText text
  have separators := groupsIn.follow (DigitGroup.follow_separatorErrors false)
  have digits := groupsIn.follow
    (DigitGroup.follow_digitErrors (ofText text).radix (String.ofList (ofText text).image))
  have under := List.forall_mem_append.mpr ⟨separators.under, digits.under⟩
  have differ := List.pairwise_append.mpr ⟨separators.differ, digits.differ,
    fun separator isSeparator digit isDigit _ => by
      rw [code_of_mem_separators isSeparator, code_of_mem_digits isDigit]
      decide⟩
  rw [errors]
  split
  next missing =>
    -- the report on the whole literal is of the class of those on its digits
    obtain ⟨present, behind⟩ := prefix_of_radix missing.1
    have whole : IsUnder 0 (ofText text).image ⟨0, 0 + byteSize (ofText text).image⟩ := .of_ne_nil present
    constructor
    · exact List.forall_mem_append.mpr ⟨under, by simpa using whole⟩
    · apply List.pairwise_append.mpr
      refine ⟨differ, List.pairwise_singleton _ _, ?_⟩
      intro error member last isLast
      obtain rfl := List.mem_singleton.mp isLast
      rcases List.mem_append.mp member with isSeparator | isDigit
      · intro _
        rw [code_of_mem_separators isSeparator]
        exact nofun
      · -- the digits stand behind the prefix of the literal
        obtain ⟨group, isGroup, found⟩ := List.mem_flatMap.mp isDigit
        have further := ((DigitGroup.follow_digitErrors _ _ _ _).under error found).bounds.1
        have := behind group isGroup
        intro same
        exact absurd same (by dsimp only; omega)
  next => exact ⟨by simpa using under, by simpa using differ⟩

end NumberLiteral

namespace Reading

/-- The faults that the reading finds lie in what it takes of the text, and no two of them are the
same. -/
structure Locates (text : List Char) (reading : Reading) : Prop where
  under : ∀ error ∈ reading.errors, IsUnder 0 (text.take (reading.extra + 1)) error.span
  differ : reading.errors.Pairwise LexError.Differs

variable {text : List Char}

theorem locates_of_clean {reading : Reading} (clean : reading.errors = []) :
    reading.Locates text := ⟨by simp [clean], by simp [clean]⟩

theorem locates_skip (extra : Nat) : (skip extra).Locates text := locates_of_clean rfl

theorem locates_token (extra : Nat) (lexeme : Lexeme) : (token extra lexeme).Locates text :=
  locates_of_clean rfl

theorem locates_mark (extra : Nat) (mark : Punctuation) : (Reading.mark extra mark).Locates text :=
  locates_of_clean rfl

theorem locates_fault (present : text ≠ []) (extra : Nat) (found : LexFault) :
    (fault text extra found).Locates text := by
  have taken : text.take (extra + 1) ≠ [] := by simpa using present
  refine ⟨fun error member => ?_, List.pairwise_singleton _ _⟩
  rw [List.mem_singleton.mp member]
  have under : IsUnder 0 (text.take (extra + 1)) ⟨0, 0 + byteSize (text.take (extra + 1))⟩ :=
    .of_ne_nil taken
  rwa [Nat.zero_add] at under

theorem locates_ite {condition : Prop} [Decidable condition] {left right : Reading}
    (first : condition → left.Locates text) (second : ¬ condition → right.Locates text) :
    (if condition then left else right).Locates text := by
  split
  next holds => exact first holds
  next fails => exact second fails

end Reading

open Reading (locates_ite locates_skip locates_token locates_mark locates_fault)

theorem NumberLiteral.locates_read (first : Char) (rest : List Char)
    (starts : isDigitOrSeparator first = true) :
    (read (first :: rest)).Locates (first :: rest) := by
  obtain ⟨more, after, rfl, image, -⟩ := exists_of_ofText first rest starts
  have taken : (first :: (more ++ after)).take ((read (first :: (more ++ after))).extra + 1) =
      (ofText (first :: (more ++ after))).image := by
    simp [read, image]
  obtain ⟨under, differ⟩ := errors_ofText (first :: (more ++ after))
  exact ⟨taken ▸ under, differ⟩

section Readers

variable {text : List Char} (present : text ≠ [])
include present

theorem locates_readBlockComment : (readBlockComment text).Locates text :=
  locates_ite (fun _ => locates_skip _) fun _ => locates_fault present _ _

theorem locates_readSign : (readSign text).Locates text := by
  unfold readSign
  dsimp only
  split
  · exact locates_token _ _
  · exact locates_fault present _ _

theorem LiteralBody.locates_reading (kind : LiteralKind) (body : LiteralBody) :
    (body.reading text kind).Locates text := by
  unfold reading
  split
  · exact locates_token _ _
  · exact locates_fault present _ _
  · exact locates_fault present _ _

theorem locates_closeCharacter (extra : Nat) (character : Char) :
    (closeCharacter text extra character).Locates text := by
  unfold closeCharacter
  split
  · exact locates_fault present _ _
  · exact locates_ite (fun _ => locates_token _ _) fun _ => locates_fault present _ _

theorem locates_readCharacter : (readCharacter text).Locates text := by
  unfold readCharacter
  split
  · exact locates_fault present _ _
  · refine locates_ite (fun _ => ?_) fun _ => locates_ite (fun _ => locates_fault present _ _)
      fun _ => locates_ite (fun _ => locates_fault present _ _)
        fun _ => locates_closeCharacter present _ _
    split
    · exact locates_fault present _ _
    · exact locates_closeCharacter present _ _

end Readers

theorem locates_readDots (text : List Char) : (readDots text).Locates text := by
  unfold readDots
  split <;> exact locates_mark _ _

theorem Reading.locates_ofText (first : Char) (rest : List Char) :
    (ofText first rest).Locates (first :: rest) := by
  have present := List.cons_ne_nil first rest
  unfold ofText
  -- the kinds of what may start with the character, in the order in which they are tried
  refine locates_ite (fun _ => locates_skip _) fun _ => locates_ite (fun _ => ?_) fun _ =>
    locates_ite (fun _ => locates_readBlockComment present) fun _ =>
      locates_ite (fun _ => locates_readDots _) fun _ => locates_ite (fun _ => locates_mark _ _)
        fun _ => locates_ite (fun separated => ?_) fun _ => locates_ite (fun _ => locates_token _ _)
          fun _ => locates_ite (fun _ => locates_readSign present) fun _ =>
            locates_ite (fun isDigit => ?_) fun _ => ?_
  · exact locates_ite (fun _ => locates_skip _) fun _ => locates_skip _
  · exact NumberLiteral.locates_read first rest (by rw [separated.1]; decide)
  · exact NumberLiteral.locates_read first rest (by simp [isDigitOrSeparator, isDigit])
  · split
    · exact locates_mark _ _
    · exact locates_ite (fun _ => LiteralBody.locates_reading present _ _) fun _ =>
        locates_ite (fun _ => LiteralBody.locates_reading present _ _) fun _ =>
          locates_ite (fun _ => locates_readCharacter present) fun _ =>
            locates_ite (fun _ => locates_token _ _) fun _ => locates_fault present _ _

/-- The faults of a text lie in it, and no two of them are the same. -/
theorem Lexed.errors_ofText (start : Nat) (text : List Char) :
    (∀ error ∈ (ofText start text).errors, IsUnder start text error.span) ∧
      (ofText start text).errors.Pairwise LexError.Differs := by
  fun_induction ofText start text with
  | case1 => exact ⟨by simp, .nil⟩
  | case2 start first rest reading taken ih =>
    obtain ⟨under, differ⟩ := ih
    have located := Reading.locates_ofText first rest
    have cut : first :: rest = taken ++ rest.drop reading.extra :=
      congrArg (first :: ·) (List.take_append_drop ..).symm
    -- the errors of one reading lie in the characters that it takes
    have here : ∀ error ∈ reading.errors, IsUnder start taken (error.span.shift start) :=
      fun error member => (located.under error member).shift start
    rw [cut]
    simp only [push]
    refine ⟨List.forall_mem_append.mpr ⟨?_, fun error member => (under error member).prepend⟩,
      List.pairwise_append.mpr ⟨?_, differ, ?_⟩⟩
    · exact List.forall_mem_map.mpr fun error member => (here error member).append _
    · refine List.pairwise_map.mpr (located.differ.imp fun differ same => differ ?_)
      exact Nat.add_right_cancel same
    · -- what is found later starts behind all that is taken here
      intro shifted member later isLater same
      obtain ⟨error, isHere, rfl⟩ := List.mem_map.mp member
      have := (here error isHere).bounds
      have := (under later isLater).bounds
      exact absurd same (by dsimp only; omega)

theorem Lexed.errors_ofFile (file : File) :
    (∀ error ∈ (ofFile file).errors, IsUnder file.start file.content error.span) ∧
      (ofFile file).errors.Pairwise LexError.Differs :=
  errors_ofText file.start file.content

end Cadence
