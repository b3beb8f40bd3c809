import Cadence.Proofs.Source.Path
import Mathlib.Data.List.Induction

/-!
# Joining and normalizing

A normalized path has no component that stays in place, and no step up behind a named folder. To go
on from a folder comes to the same whether the folder is normalized first or not: only the
components that the folder reduces to matter for what follows.
-/
namespace Cadence.Source

open Cadence.Source.Path (separator dot segments step)

namespace IsReduced

variable {components : List Component}

/-- What is reduced never stays in place. -/
theorem current_notMem (reduced : IsReduced components) : Component.current ∉ components := by
  induction reduced with
  | empty => exact List.not_mem_nil
  | root => decide
  | up _ _ ih | down _ _ ih => simpa using ih

/-- What is reduced, latest first, does not go up behind a name. -/
theorem not_infix (reduced : IsReduced components) (bytes : List UInt8) :
    ¬ [Component.parent, .name bytes] <:+: components := by
  -- the two would be the latest components, or stand among those before the latest
  induction reduced with
  | empty => simp
  | root => simp [List.infix_cons_iff]
  | up _ highest ih =>
    rw [List.infix_cons_iff, not_or]
    refine ⟨?_, ih⟩
    rintro ⟨rest, same⟩
    exact highest bytes rest (List.cons.inj same).2.symm
  | down _ _ ih =>
    rw [List.infix_cons_iff, not_or]
    refine ⟨?_, ih⟩
    rintro ⟨rest, same⟩
    cases (List.cons.inj same).1

end IsReduced

namespace Path

/-- To go on to something adds its stretches to those of the folder. -/
theorem mem_segments_join {folder path : Path} {segment : List UInt8}
    (member : segment ∈ segments (folder.join path).bytes) :
    segment ∈ segments folder.bytes ∨ segment ∈ segments path.bytes := by
  rw [join] at member
  split at member
  next => exact .inr member
  split at member
  next ends =>
    rcases ends with nothing | last
    · rw [nothing] at member
      exact .inr member
    · obtain ⟨front, same⟩ := List.getLast?_eq_some_iff.mp last
      rw [same] at member ⊢
      rw [List.append_assoc, List.singleton_append, segments_append_separator] at member
      rw [segments_append_separator]
      exact (List.mem_append.mp member).imp_left (List.mem_append_left _)
  next =>
    rw [segments_append_separator] at member
    exact List.mem_append.mp member

/-- No stretch of a path that is put together from components is a dot, unless a component is. -/
theorem dot_notMem_segments_ofComponents {components : List Component}
    (moving : ∀ component ∈ components, [dot] ∉ segments component.bytes) :
    [dot] ∉ segments (ofComponents components).bytes := by
  induction components using List.reverseRecOn with
  | nil => decide
  | append_singleton before last ih =>
    obtain ⟨earlier, own⟩ := List.forall_mem_append.mp moving
    rw [ofComponents, List.foldl_append]
    exact fun member => (mem_segments_join member).elim (ih earlier) (own last (List.mem_singleton_self _))

/-- A component that is reduced is not a dot. -/
theorem dot_notMem_segments_of_isReduced {components : List Component} (reduced : IsReduced components) :
    ∀ component ∈ components, [dot] ∉ segments component.bytes := by
  induction reduced with
  | empty => exact List.forall_mem_nil _
  | root => exact List.forall_mem_singleton.mpr (by decide)
  | up _ _ ih => exact List.forall_mem_cons.mpr ⟨by decide, ih⟩
  | down _ named ih =>
    refine List.forall_mem_cons.mpr ⟨?_, ih⟩
    obtain ⟨whole, read⟩ := named
    rw [segments_of_not_mem whole, List.mem_singleton]
    rintro stays
    rw [← stays] at read
    cases read

/-- A dot in front of a relative path makes no difference to what it reduces to. -/
theorem foldl_step_components {path : Path} (relative : path.isAbsolute = false)
    (before : List Component) : path.components.foldl step before =
      ((segments path.bytes).filterMap component?).foldl step before := by
  rw [components, relative, if_neg Bool.false_ne_true, List.foldl_append]
  split <;> rfl

/-- To go on to a relative path takes its components behind those of the folder. -/
theorem foldl_step_join (folder : Path) {path : Path} (relative : path.isAbsolute = false) :
    (folder.join path).components.foldl step [] =
      path.components.foldl step (folder.components.foldl step []) := by
  rw [foldl_step_components relative]
  by_cases nothing : folder.bytes = []
  · obtain ⟨bytes⟩ := folder
    obtain rfl : bytes = [] := nothing
    rw [join, relative, if_neg Bool.false_ne_true, if_pos (.inl rfl)]
    exact foldl_step_components relative []
  · rw [components_join_relative nothing relative, List.foldl_append]

/-- The components of a normalized path reduce to what those of the path itself do. -/
theorem foldl_step_normalize (path : Path) :
    path.normalize.components.foldl step [] = path.components.foldl step [] := by
  rw [components_normalize, reduce, path.isReduced_components.foldl_eq]

/-- To normalize the folder first makes no difference to where a path leads from there. -/
theorem normalize_join_normalize (folder path : Path) :
    (folder.normalize.join path).normalize = (folder.join path).normalize := by
  cases absolute : path.isAbsolute with
  | true => rw [join, join, if_pos absolute, if_pos absolute]
  | false =>
    rw [normalize_eq_iff, reduce, reduce, foldl_step_join _ absolute, foldl_step_join _ absolute,
      foldl_step_normalize]

/-- Every path has one normal form. Nothing in it stays in place, be it as a component or as a
stretch between two slashes, and no step up follows a named folder. To normalize it again changes
nothing, and neither does it matter to where another path leads from there, be that absolute,
relative or empty. -/
theorem normal_form_is_canonical (path further : Path) :
    (Component.current ∉ path.normalize.components ∧ [dot] ∉ segments path.normalize.bytes) ∧
      (∀ bytes, ¬ [Component.name bytes, .parent] <:+: path.normalize.components) ∧
      path.normalize.normalize = path.normalize ∧
      (path.normalize.join further).normalize = (path.join further).normalize := by
  have reduced := path.isReduced_components
  refine ⟨⟨?_, ?_⟩, fun bytes => ?_, normalize_normalize path, normalize_join_normalize path further⟩
  · rw [components_normalize, reduce, List.mem_reverse]
    exact reduced.current_notMem
  · refine dot_notMem_segments_ofComponents fun component member => ?_
    exact dot_notMem_segments_of_isReduced reduced component (List.mem_reverse.mp member)
  · rw [components_normalize, reduce, ← List.reverse_infix, List.reverse_reverse]
    exact reduced.not_infix bytes

/-- Two ways to the same file. -/
example : ((ofString "./lib/../main").join (ofString "../io")).normalize = ofString "io" := by
  decide +kernel

end Path

end Cadence.Source
