import Cadence.Source.Map
import Mathlib.Data.List.Infix

/-!
# Line endings of added texts

A text is added to a source map without the carriage return of each Windows line ending. The text is
gone through once. A carriage return in front of such a line ending is not part of it, and so it
stays and stands in front of a line feed afterwards. This is the only way in which the content of a
file can hold a Windows line ending, and the only way in which adding the content once more changes
anything.
-/
namespace Cadence.Source

/-- A carriage return with a line feed directly behind it. -/
def windowsBreak : List Char := ['\r', '\n']

variable {character : Char} {rest : List Char}

theorem not_windowsBreak_prefix_cons
    (noBreak : ∀ behind, character = '\r' → rest = '\n' :: behind → False) :
    ¬ windowsBreak <+: character :: rest := by
  rintro ⟨behind, same⟩
  obtain ⟨isReturn, isBreak⟩ := List.cons.inj same
  exact noBreak behind isReturn.symm isBreak.symm

theorem withoutReturns_cons
    (noBreak : ∀ behind, character = '\r' → rest = '\n' :: behind → False) :
    withoutReturns (character :: rest) = character :: withoutReturns rest := by
  rw [withoutReturns]
  exact noBreak

/-- Nothing is put in. -/
theorem withoutReturns_sublist (text : List Char) : (withoutReturns text).Sublist text := by
  fun_induction withoutReturns text with
  | case1 rest ih => exact (ih.cons_cons '\n').cons '\r'
  | case2 character rest noBreak ih => exact ih.cons_cons character
  | case3 => exact .slnil

/-- A Windows line ending becomes a line feed, wherever it stands. -/
theorem withoutReturns_append_break (front behind : List Char) :
    withoutReturns (front ++ windowsBreak ++ behind) =
      withoutReturns front ++ '\n' :: withoutReturns behind := by
  rw [List.append_assoc]
  fun_induction withoutReturns front with
  | case1 rest ih => simpa [withoutReturns] using ih
  | case2 character rest noBreak ih =>
    rw [List.cons_append, withoutReturns_cons, ih, List.cons_append]
    intro others isReturn same
    cases rest with
    | nil => simp [windowsBreak] at same
    | cons next rest =>
      obtain ⟨rfl, -⟩ := List.cons.inj same
      exact noBreak rest isReturn rfl
  | case3 => simp [windowsBreak, withoutReturns]

theorem withoutReturns_eq_self_iff {text : List Char} :
    withoutReturns text = text ↔ ¬ windowsBreak <:+: text := by
  constructor
  · rintro same ⟨front, behind, rfl⟩
    rw [withoutReturns_append_break] at same
    have fewer := (withoutReturns_sublist front).length_le
    have fewerBehind := (withoutReturns_sublist behind).length_le
    have size := congrArg List.length same
    simp only [windowsBreak, List.length_append, List.length_cons, List.length_nil] at size
    omega
  · intro absent
    fun_induction withoutReturns text with
    | case1 rest ih => exact absurd ⟨[], rest, rfl⟩ absent
    | case2 character rest noBreak ih =>
      rw [ih fun inside => absent (inside.trans (List.suffix_cons _ _).isInfix)]
    | case3 => rfl

/-- A line feed comes first if there was one already or a Windows line ending. -/
theorem prefix_withoutReturns_iff (text : List Char) :
    ['\n'] <+: withoutReturns text ↔ ['\n'] <+: text ∨ windowsBreak <+: text := by
  fun_cases withoutReturns text with
  | case1 rest => simp [windowsBreak]
  | case2 character rest noBreak =>
    -- a carriage return is not followed by a line feed here
    simp [not_windowsBreak_prefix_cons noBreak]
  | case3 => simp [windowsBreak]

/-- What is left holds a Windows line ending where the text holds one behind a carriage return. -/
theorem windowsBreak_infix_withoutReturns_iff (text : List Char) :
    windowsBreak <:+: withoutReturns text ↔ '\r' :: windowsBreak <:+: text := by
  fun_induction withoutReturns text with
  | case1 rest ih =>
    rw [List.infix_cons_iff, ih, List.infix_cons_iff, List.infix_cons_iff]
    simp [windowsBreak]
  | case2 character rest noBreak ih =>
    have first : windowsBreak <+: character :: withoutReturns rest ↔
        '\r' :: windowsBreak <+: character :: rest := by
      rw [windowsBreak, List.cons_prefix_cons, prefix_withoutReturns_iff, List.cons_prefix_cons]
      constructor
      · rintro ⟨isReturn, ⟨behind, isBreak⟩ | isDouble⟩
        · exact absurd isBreak.symm (noBreak behind isReturn.symm)
        · exact ⟨isReturn, isDouble⟩
      · rintro ⟨isReturn, isDouble⟩
        exact ⟨isReturn, .inr isDouble⟩
    rw [List.infix_cons_iff, List.infix_cons_iff, first, ih]
  | case3 => simp [windowsBreak]

/-- A character is left out where a Windows line ending starts, and all others are kept. -/
theorem withoutReturns_eq_filterMap_tails (text : List Char) :
    withoutReturns text = text.tails.filterMap fun rest =>
      if windowsBreak <+: rest then none else rest.head? := by
  fun_induction withoutReturns text with
  | case1 rest ih => simp [windowsBreak, ih]
  | case2 character rest noBreak ih =>
    rw [List.tails_cons, List.filterMap_cons, if_neg (not_windowsBreak_prefix_cons noBreak), ih]
    rfl
  | case3 => simp

/-- The text with a carriage return in front of each line feed. -/
def withReturns (text : List Char) : List Char :=
  text.flatMap fun character => if character = '\n' then windowsBreak else [character]

/-- A text with Windows line endings is added as the one with plain line feeds. So every text is the
content of some file, also one with a carriage return in front of a line feed. -/
theorem withoutReturns_withReturns (content : List Char) :
    withoutReturns (withReturns content) = content := by
  induction content with
  | nil => rfl
  | cons character rest ih =>
    rw [withReturns, List.flatMap_cons, ← withReturns]
    split
    next isBreak =>
      have first := withoutReturns_append_break [] (withReturns rest)
      rw [List.nil_append] at first
      rw [first, ih, isBreak]
      rfl
    next =>
      rw [List.singleton_append, withoutReturns_cons, ih]
      -- no line feed comes first behind the change
      rintro behind - same
      cases rest with
      | nil => cases same
      | cons next rest =>
        rw [withReturns, List.flatMap_cons] at same
        split at same
        next => cases same
        next other => exact other (List.cons.inj same).1

/-- The content of an added file is the text without the carriage returns that have a line feed
directly behind them. It holds no Windows line ending, and adding it again, to any map, changes
nothing, exactly if there is no Windows line ending behind a carriage return in the text. -/
theorem line_endings_are_normalized_iff (map : Map) (name : FileName) (text : List Char) :
    let file := map.place name text
    (map.add name text).files = map.files ++ [file] ∧
    (file.content = text.tails.filterMap fun rest =>
      if windowsBreak <+: rest then none else rest.head?) ∧
    (¬ windowsBreak <:+: file.content ↔ ¬ '\r' :: windowsBreak <:+: text) ∧
    ∀ (later : Map) (other : FileName),
      (later.place other file.content).content = file.content ↔
        ¬ '\r' :: windowsBreak <:+: text := by
  have kept := not_congr (windowsBreak_infix_withoutReturns_iff text)
  refine ⟨rfl, withoutReturns_eq_filterMap_tails text, kept, ?_⟩
  intro later other
  exact withoutReturns_eq_self_iff.trans kept

/-- A carriage return in front of a Windows line ending makes a new one of the line feed, which is
only normalized when the content is added again. -/
theorem doubled_return_is_kept :
    windowsBreak <:+: (Map.empty.place .anonymous ['\r', '\r', '\n']).content ∧
      (Map.empty.place .anonymous (Map.empty.place .anonymous ['\r', '\r', '\n']).content).content ≠
        (Map.empty.place .anonymous ['\r', '\r', '\n']).content := by
  have first : (Map.empty.place .anonymous ['\r', '\r', '\n']).content = ['\r', '\n'] := by
    decide
  rw [first]
  exact ⟨List.infix_refl _, by decide⟩

end Cadence.Source
