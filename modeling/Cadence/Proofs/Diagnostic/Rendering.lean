import Cadence.Diagnostic.Render
import Cadence.Proofs.Diagnostic.Order
import Cadence.Proofs.Source.Map

/-!
# Diagnostics that can be shown

A diagnostic points at the places that its highlights were made with, however they are ordered. It
can be shown as text if each of them lies in a file of the source map.
-/
namespace Cadence

open Source (Map Span)

namespace Diagnostic

variable {holds : Span → Prop} {diagnostic : Diagnostic} {span : Span} {label : String}

/-- Something holds of every place that a diagnostic points at. -/
def AllPlaces (holds : Span → Prop) (diagnostic : Diagnostic) : Prop :=
  ∀ highlight ∈ diagnostic.highlights, holds highlight.span

theorem AllPlaces.mono {weaker : Span → Prop} (places : diagnostic.AllPlaces holds)
    (implies : ∀ span, holds span → weaker span) : diagnostic.AllPlaces weaker :=
  fun highlight member => implies _ (places highlight member)

theorem allPlaces_of_nil (none : diagnostic.highlights = []) : diagnostic.AllPlaces holds := by
  rw [AllPlaces, none]
  exact List.forall_mem_nil _

@[simp]
theorem allPlaces_highlight {highlight : Highlight} :
    (diagnostic.highlight highlight).AllPlaces holds ↔
      holds highlight.span ∧ diagnostic.AllPlaces holds := by
  simp [AllPlaces, Diagnostic.highlight, Sorted.mem_insert]

@[simp]
theorem allPlaces_pointAt : (diagnostic.pointAt span label).AllPlaces holds ↔
    holds span ∧ diagnostic.AllPlaces holds := allPlaces_highlight

@[simp]
theorem allPlaces_pointAtUnlabeled : (diagnostic.pointAtUnlabeled span).AllPlaces holds ↔
    holds span ∧ diagnostic.AllPlaces holds := allPlaces_highlight

@[simp]
theorem allPlaces_seeAlso : (diagnostic.seeAlso span label).AllPlaces holds ↔
    holds span ∧ diagnostic.AllPlaces holds := allPlaces_highlight

@[simp]
theorem allPlaces_note {text : String} :
    (diagnostic.note text).AllPlaces holds ↔ diagnostic.AllPlaces holds := Iff.rfl

@[simp]
theorem allPlaces_help {text : String} :
    (diagnostic.help text).AllPlaces holds ↔ diagnostic.AllPlaces holds := Iff.rfl

@[simp]
theorem allPlaces_error {code : ErrorCode} {message : String} :
    (error code message).AllPlaces holds := allPlaces_of_nil rfl

end Diagnostic

theorem isSome_mapM {α β : Type} {step : α → Option β} {items : List α}
    (each : ∀ item ∈ items, (step item).isSome = true) : (items.mapM step).isSome = true := by
  induction items with
  | nil => rfl
  | cons first rest ih =>
    obtain ⟨own, others⟩ := List.forall_mem_cons.mp each
    obtain ⟨result, found⟩ := Option.isSome_iff_exists.mp own
    obtain ⟨results, known⟩ := Option.isSome_iff_exists.mp (ih others)
    simp [List.mapM_cons, found, known]

theorem map_some_of_mapM {α β : Type} {step : α → Option β} {items : List α} {results : List β}
    (run : items.mapM step = some results) : results.map some = items.map step := by
  induction items generalizing results with
  | nil =>
    obtain rfl := Option.some.inj run
    rfl
  | cons first rest ih =>
    simp only [List.mapM_cons, Option.bind_eq_bind, Option.bind_eq_some_iff, Option.pure_def,
      Option.some.injEq] at run
    obtain ⟨result, own, others, known, rfl⟩ := run
    rw [List.map_cons, List.map_cons, own, ih known]

theorem length_mapM {α β : Type} {step : α → Option β} {items : List α} {results : List β}
    (run : items.mapM step = some results) : results.length = items.length := by
  simpa using congrArg List.length (map_some_of_mapM run)

theorem getElem?_mapM {α β : Type} {step : α → Option β} {items : List α} {results : List β}
    (run : items.mapM step = some results) (index : Nat) :
    results[index]? = items[index]?.bind step := by
  have same := congrArg (fun list => list[index]?.bind id) (map_some_of_mapM run)
  simpa [Option.bind_map, Function.comp_def] using same

/-- Each excerpt shows the highlight of the same number. -/
theorem Diagnostic.getElem?_excerpts? {diagnostic : Diagnostic} {map : Option Map}
    {excerpts : List Excerpt} (found : diagnostic.excerpts? map = some excerpts) {index : Nat}
    {excerpt : Excerpt} (shown : excerpts[index]? = some excerpt) :
    ∃ highlight, diagnostic.highlights[index]? = some highlight ∧
      (∃ known ∈ map, known.markedLine? highlight.span = some excerpt.line) ∧
      excerpt.role = highlight.role ∧ excerpt.label = highlight.label := by
  rw [getElem?_mapM found, Option.bind_eq_some_iff] at shown
  obtain ⟨highlight, isHighlight, made⟩ := shown
  simp only [Option.bind_eq_bind, Option.bind_eq_some_iff, Option.pure_def, Option.some.injEq] at made
  obtain ⟨known, isMap, line, marked, rfl⟩ := made
  exact ⟨highlight, isHighlight, ⟨known, isMap, marked⟩, rfl, rfl⟩

theorem Diagnostic.length_excerpts? {diagnostic : Diagnostic} {map : Option Map}
    {excerpts : List Excerpt} (found : diagnostic.excerpts? map = some excerpts) :
    excerpts.length = diagnostic.highlights.length :=
  length_mapM found

/-- Each highlight has an excerpt of the same number. -/
theorem Diagnostic.exists_excerpt {diagnostic : Diagnostic} {map : Map} {excerpts : List Excerpt}
    (found : diagnostic.excerpts? (some map) = some excerpts) {index : Nat} {highlight : Highlight}
    (isHighlight : diagnostic.highlights[index]? = some highlight) :
    ∃ excerpt, excerpts[index]? = some excerpt ∧
      map.markedLine? highlight.span = some excerpt.line ∧ excerpt.role = highlight.role := by
  have inside : index < excerpts.length := by
    rw [length_excerpts? found]
    exact (List.getElem?_eq_some_iff.mp isHighlight).1
  have shown := List.getElem?_eq_getElem inside
  obtain ⟨own, isOwn, ⟨_, isMap, marked⟩, role, -⟩ := getElem?_excerpts? found shown
  obtain rfl := Option.some.inj (isHighlight.symm.trans isOwn)
  obtain rfl := Option.mem_some_iff.mp isMap
  exact ⟨_, shown, marked, role⟩

/-- Where every highlight lies in a file of the map, the diagnostic can be shown. -/
theorem Diagnostic.isSome_render? {diagnostic : Diagnostic} {map : Map} (spaced : map.IsSpaced)
    (places : diagnostic.AllPlaces map.Holds) (colored : Bool) :
    (diagnostic.render? (some map) colored).isSome = true := by
  have shown : (diagnostic.excerpts? (some map)).isSome = true := by
    apply isSome_mapM
    intro highlight member
    obtain ⟨file, isFile, holds⟩ := places highlight member
    have found := spaced.file?_of_holds isFile holds
    obtain ⟨line, marked⟩ := Option.isSome_iff_exists.mp (Map.isSome_markedLine? found holds)
    simp [marked]
  obtain ⟨excerpts, found⟩ := Option.isSome_iff_exists.mp shown
  simp [render?, strokes?, found]

end Cadence
