import Cadence.Source.Path

/-!
# Normal forms of paths

A normalized path starts at the root or not, goes up some folders and then down into others. It is
read back as these components, so normalizing it again changes nothing: two paths have the same
normal form exactly if they reduce to the same components.
-/
namespace Cadence.Source

open Cadence.Source.Path (separator dot component? segments)

/-- Whether a component is read where its bytes stand between separators. -/
def Component.IsStep (component : Component) : Prop :=
  separator ∉ component.bytes ∧ component? component.bytes = some component

/-- Components that cannot be reduced any further, latest first. -/
inductive IsReduced : List Component → Prop
  | empty : IsReduced []
  | root : IsReduced [.root]
  | up {before : List Component} : IsReduced before → (∀ bytes rest, before ≠ .name bytes :: rest) →
      IsReduced (.parent :: before)
  | down {bytes : List UInt8} {before : List Component} : IsReduced before →
      (Component.name bytes).IsStep → IsReduced (.name bytes :: before)

namespace Path

section Segments

variable (bytes front rest : List UInt8)

/-- There is a segment in front, and no segment has a separator in it. -/
theorem exists_segments : ∃ first others, segments bytes = first :: others ∧
    ∀ segment ∈ segments bytes, separator ∉ segment := by
  induction bytes with
  | nil => exact ⟨[], [], rfl, by simp [segments]⟩
  | cons byte rest ih =>
    obtain ⟨first, others, split_eq, whole⟩ := ih
    rw [split_eq, List.forall_mem_cons] at whole
    rw [segments, split_eq]
    dsimp only
    by_cases separates : byte = separator
    · refine ⟨[], first :: others, if_pos separates, ?_⟩
      rw [if_pos separates]
      exact List.forall_mem_cons.mpr ⟨List.not_mem_nil, List.forall_mem_cons.mpr whole⟩
    · refine ⟨byte :: first, others, if_neg separates, ?_⟩
      rw [if_neg separates]
      refine List.forall_mem_cons.mpr ⟨?_, whole.2⟩
      rw [List.mem_cons, not_or]
      exact ⟨Ne.symm separates, whole.1⟩

theorem segments_cons_separator : segments (separator :: rest) = [] :: segments rest := by
  obtain ⟨first, others, split_eq, _⟩ := exists_segments rest
  rw [segments, split_eq]
  exact if_pos rfl

/-- A separator ends a segment. -/
theorem segments_append_separator :
    segments (front ++ separator :: rest) = segments front ++ segments rest := by
  induction front with
  | nil => exact segments_cons_separator rest
  | cons byte front ih =>
    obtain ⟨first, others, split_eq, _⟩ := exists_segments front
    rw [List.cons_append, segments, ih, segments, split_eq]
    by_cases separates : byte = separator <;> simp [separates]

variable {bytes}

theorem segments_of_not_mem (whole : separator ∉ bytes) : segments bytes = [bytes] := by
  induction bytes with
  | nil => rfl
  | cons byte rest ih =>
    rw [List.mem_cons, not_or] at whole
    rw [segments, ih whole.2]
    exact if_neg (Ne.symm whole.1)

end Segments

section Components

theorem bytes_of_component? {segment : List UInt8} {component : Component}
    (read : component? segment = some component) : component.bytes = segment := by
  unfold component? at read
  split at read
  · cases read
  split at read
  next up =>
    obtain rfl := Option.some.inj read
    exact up.symm
  next =>
    obtain rfl := Option.some.inj read
    rfl

theorem isStep_of_mem {bytes : List UInt8} {component : Component}
    (member : component ∈ (segments bytes).filterMap component?) : component.IsStep := by
  obtain ⟨segment, inside, read⟩ := List.mem_filterMap.mp member
  obtain ⟨_, _, _, whole⟩ := exists_segments bytes
  have same := bytes_of_component? read
  exact ⟨same ▸ whole segment inside, same ▸ read⟩

/-- What stands behind a separator adds to the components of what stands in front of it. -/
theorem components_append_separator {front : List UInt8} (some_ : front ≠ []) (rest : List UInt8) :
    components ⟨front ++ separator :: rest⟩ =
      components ⟨front⟩ ++ (segments rest).filterMap component? := by
  have head : (segments front ++ segments rest).head? = (segments front).head? := by
    obtain ⟨first, others, split_eq, _⟩ := exists_segments front
    rw [split_eq]
    rfl
  have absolute : isAbsolute ⟨front ++ separator :: rest⟩ = isAbsolute ⟨front⟩ := by
    obtain ⟨byte, tail, rfl⟩ := List.exists_cons_of_ne_nil some_
    rfl
  simp only [components, absolute, segments_append_separator, head, List.filterMap_append, List.append_assoc]

theorem components_separator (rest : List UInt8) :
    components ⟨separator :: rest⟩ = .root :: (segments rest).filterMap component? := by
  simp [components, isAbsolute, segments_cons_separator, component?]

/-- To go on from a folder adds the components of a relative path to those of the folder. -/
theorem components_join_relative {folder path : Path} (some_ : folder.bytes ≠ [])
    (relative : path.isAbsolute = false) : (folder.join path).components =
      folder.components ++ (segments path.bytes).filterMap component? := by
  have silent : component? [] = none := rfl
  obtain ⟨bytes⟩ := folder
  rw [join, relative, if_neg Bool.false_ne_true]
  by_cases last : bytes.getLast? = some separator
  · -- the folder is the root, or the separator at its end starts no component
    rw [if_pos (.inr last)]
    obtain ⟨front, rfl⟩ := List.getLast?_eq_some_iff.mp last
    rw [List.append_assoc, List.singleton_append]
    by_cases nothing : front = []
    · rw [nothing, List.nil_append, List.nil_append, components_separator, components_separator]
      rfl
    · rw [components_append_separator nothing, components_append_separator nothing]
      simp [segments, silent]
  · rw [if_neg (not_or.mpr ⟨some_, last⟩), components_append_separator some_]

/-- To go on to a component adds it to the others. -/
theorem components_join (folder : Path) {component : Component} (step : component.IsStep) :
    (folder.join ⟨component.bytes⟩).components = folder.components ++ [component] := by
  obtain ⟨whole, read⟩ := step
  have alone : (segments component.bytes).filterMap component? = [component] := by
    rw [segments_of_not_mem whole, List.filterMap_cons, read, List.filterMap_nil]
  have relative : isAbsolute ⟨component.bytes⟩ = false :=
    decide_eq_false fun first => whole (List.mem_of_head? first)
  by_cases nothing : folder.bytes = []
  · -- a dot alone would be none of the components
    have moves : component.bytes ≠ [dot] := by
      rintro stays
      rw [stays] at read
      cases read
    obtain ⟨bytes⟩ := folder
    obtain rfl : bytes = [] := nothing
    rw [join, relative, if_neg Bool.false_ne_true, if_pos (.inl rfl), List.nil_append,
      show components ⟨[]⟩ = [] from rfl, components, relative, alone, segments_of_not_mem whole,
      List.head?_cons, if_neg Bool.false_ne_true, if_neg (mt Option.some.inj moves)]
  · rw [components_join_relative nothing relative, alone]

end Components

end Path

namespace IsReduced

open Cadence.Source.Path (step reduce ofComponents)

variable {before components : List Component} {component : Component}

/-- To take one more component keeps what is reduced. -/
theorem take (reduced : IsReduced before) (isStep : component.IsStep) :
    IsReduced (step before component) := by
  cases component with
  | root => exact absurd (List.mem_singleton_self _) isStep.1
  | current => exact reduced
  | name bytes => cases before <;> exact .down reduced isStep
  | parent =>
    cases reduced with
    | empty => exact .up .empty nofun
    | root => exact .up .root nofun
    | up above highest => exact .up (.up above highest) nofun
    | down above _ => exact above

theorem takeAll (reduced : IsReduced before) (steps : ∀ component ∈ components, component.IsStep) :
    IsReduced (components.foldl step before) := by
  induction components generalizing before with
  | nil => exact reduced
  | cons first rest ih =>
    rw [List.forall_mem_cons] at steps
    exact ih (reduced.take steps.1) steps.2

/-- What is reduced stays as it is. -/
theorem foldl_eq (reduced : IsReduced components) : components.reverse.foldl step [] = components := by
  induction reduced with
  | empty | root => rfl
  | @up before _ highest ih =>
    rw [List.reverse_cons, List.foldl_append, ih]
    -- a step up is only taken back with a named folder
    cases before with
    | nil => rfl
    | cons last rest =>
      cases last with
      | name bytes => exact absurd rfl (highest bytes rest)
      | root | current | parent => rfl
  | down _ _ ih =>
    rw [List.reverse_cons, List.foldl_append, ih]
    cases ‹List Component› <;> rfl

/-- The path with reduced components has these components. -/
theorem components_ofComponents (reduced : IsReduced components) :
    (ofComponents components.reverse).components = components.reverse := by
  -- each component is one step on from the path of those in front
  have add {before : List Component} {component : Component} (isStep : component.IsStep)
      (ih : (ofComponents before.reverse).components = before.reverse) :
      (ofComponents (component :: before).reverse).components = (component :: before).reverse := by
    rw [List.reverse_cons, ofComponents, List.foldl_append]
    exact (Path.components_join _ isStep).trans (congrArg (· ++ [component]) ih)
  induction reduced with
  | empty => rfl
  | root => rfl
  | up _ _ ih => exact add (by constructor <;> decide) ih
  | down _ named ih => exact add named ih

end IsReduced

namespace Path

/-- What a path reduces to cannot be reduced any further. -/
theorem isReduced_components (path : Path) : IsReduced (path.components.foldl step []) := by
  rw [components, List.foldl_append]
  refine IsReduced.takeAll ?_ fun component member => isStep_of_mem member
  split
  · exact .root
  · split
    · exact .empty
    · exact .empty

theorem components_normalize (path : Path) : path.normalize.components = reduce path.components :=
  path.isReduced_components.components_ofComponents

/-- To normalize a path again changes nothing. -/
theorem normalize_normalize (path : Path) : path.normalize.normalize = path.normalize := by
  rw [normalize, components_normalize, normalize, reduce, reduce, path.isReduced_components.foldl_eq]

/-- Paths are normalized to the same one exactly if they reduce to the same components. -/
theorem normalize_eq_iff (path other : Path) :
    path.normalize = other.normalize ↔ reduce path.components = reduce other.components := by
  constructor
  · intro same
    rw [← components_normalize, same, components_normalize]
  · exact congrArg ofComponents

end Path

end Cadence.Source
