import Cadence.Text.Difference
import Mathlib.Data.List.TakeDrop

/-!
# What the changes between two texts lead to

The stretches that are kept and those that are added, one after the other, are the second text. This does
not depend on which common pieces are kept.
-/
namespace Cadence.Text

/-- What a change leaves in the second text. -/
def Change.edited : Change → String
  | kept text | added text => text
  | removed _ => ""

/-- The text that some changes lead to. -/
def editedText (changes : List Change) : String := String.join (changes.map Change.edited)

@[simp]
theorem editedText_append (first second : List Change) :
    editedText (first ++ second) = editedText first ++ editedText second := by
  rw [editedText, List.map_append, String.join_append, editedText, editedText]

theorem joinPieces_empty (pieces : List String) : joinPieces "" pieces = String.join pieces := by
  induction pieces with
  | nil => rfl
  | cons first rest ih =>
    cases rest with
    | nil => simp [joinPieces]
    | cons second rest =>
      rw [joinPieces, String.intercalate_cons_cons, ← joinPieces, ih, String.append_empty, ← String.join_cons]

section Stretches

variable (pieces : List String)

theorem editedText_removed : editedText (stretch .removed "" pieces) = "" := by
  unfold stretch
  split <;> rfl

theorem editedText_added : editedText (stretch .added "" pieces) = String.join pieces := by
  unfold stretch
  split
  next none => rw [none]; rfl
  next => simp [editedText, Change.edited, joinPieces_empty]

theorem editedText_kept : editedText (keptStretch "" pieces) = String.join pieces := by
  unfold keptStretch
  split
  next empty => rw [← joinPieces_empty, empty.2]; rfl
  next =>
    unfold stretch
    split
    next none => rw [none]; rfl
    next => simp [editedText, Change.edited, joinPieces_empty]

end Stretches

/-- The second list starts with the stretch on which it agrees with the others. -/
theorem append_agreeing {α : Type} [DecidableEq α] (first second third : List α) :
    (agreeing first second third).1 ++ (agreeing first second third).2.2.1 = second := by
  fun_induction agreeing first second third with
  | case1 first firsts second seconds third thirds same agreed rest found ih =>
    rw [found] at ih
    exact congrArg₂ List.cons same.1 ih
  | case2 => rfl
  | case3 => rfl

/-- Without a separator, the changes lead to the second text. -/
theorem editedText_alignedChanges (first second common : List String) :
    editedText (alignedChanges "" first second common) = String.join second := by
  fun_induction alignedChanges "" first second common with
  | case1 first second common none => rw [none.2]; rfl
  | case2 first second common _ agreed first' second' common' found isOther removed first'' _ added second'' cut _ ih =>
    have starts := append_agreeing first second common
    rw [found] at starts
    have added_eq : added ++ second'' = second' := by
      rw [List.span_eq_takeWhile_dropWhile] at cut
      obtain ⟨rfl, rfl⟩ := Prod.mk.inj cut
      exact List.takeWhile_append_dropWhile
    simp only [editedText_append, editedText_kept, editedText_removed, editedText_added, ih, String.append_empty]
    rw [← starts, ← added_eq, String.join_append, String.join_append, String.append_assoc]
  | case3 first second common =>
    rw [editedText_append, editedText_removed, editedText_added, String.empty_append]

/-- The pieces of a text make up the text. -/
theorem join_alignedPieces (text : String) : String.join (alignedPieces "" text) = text := by
  have characters : String.join (text.toList.map fun character => String.ofList [character]) = text := by
    rw [← String.toList_inj, String.toList_join, List.flatMap_map]
    simp
  unfold alignedPieces pieces
  split
  next empty => rw [empty]; rfl
  next =>
    rw [if_pos rfl, List.cons_append, String.join_cons, String.join_append, characters]
    simp

/-- The changes between two texts lead to the second one. -/
theorem editedText_changeset (before after : String) :
    editedText (changeset before after "").changes = after :=
  (editedText_alignedChanges _ _ _).trans (join_alignedPieces after)

end Cadence.Text
