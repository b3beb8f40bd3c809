import Cadence.Proofs.Diagnostic.Order
import Cadence.Proofs.Parse.Lasting

/-!
# What the reports of a parser are about

Every report points out one place with a label that tells its kind from all others. So two reports
with the same diagnostic are of the same kind, and about the same place.

Most reports are about a token that was taken. Those about the current token as one that does not fit
are pending: whoever goes on at that token may find it out of place again.
-/
namespace Cadence

open Source (Span)

namespace Diagnostic

variable {diagnostic : Diagnostic} {highlight : Highlight} {span : Span} {label : String}

@[simp]
theorem mem_highlights_pointAt : highlight ∈ (diagnostic.pointAt span label).highlights ↔
    highlight = ⟨span, .primary, some label⟩ ∨ highlight ∈ diagnostic.highlights :=
  Sorted.mem_insert

@[simp]
theorem mem_highlights_seeAlso : highlight ∈ (diagnostic.seeAlso span label).highlights ↔
    highlight = ⟨span, .secondary, some label⟩ ∨ highlight ∈ diagnostic.highlights :=
  Sorted.mem_insert

@[simp]
theorem highlights_note (text : String) : (diagnostic.note text).highlights = diagnostic.highlights :=
  rfl

@[simp]
theorem highlights_help (text : String) : (diagnostic.help text).highlights = diagnostic.highlights :=
  rfl

end Diagnostic

namespace ParseError

/-- The place that the report is about. -/
def place : ParseError → Span
  | unexpected _ actual _ | noNode actual | invalidProcedureName actual => actual.span
  | misplacedVarargs marker => marker
  | unnamedProcedure keyword _ | noProcedure keyword _ | incompleteProcedure _ keyword _
  | unnamedStruct keyword _ => keyword.span
  | misplacedComma comma _ => comma.span
  | qualifiedPath path => path
  | invalidTarget _ sign => sign.span
  | unclosed opening _ => opening.span
  | notOneCharacter _ literal _ => literal.span

/-- The index at which the place starts. -/
def site (error : ParseError) : Nat := error.place.start

/-- How the place is labeled. -/
def label : ParseError → String
  | unexpected _ _ _ => "unexpected token"
  | noNode _ => "expected a declaration or an expression"
  | misplacedVarargs _ => "misplaced variadic marker"
  | unnamedProcedure _ _ => "unnamed procedure"
  | invalidProcedureName _ => "expected an identifier or an operator"
  | noProcedure _ _ => "expected a procedure declaration to start here"
  | incompleteProcedure _ _ _ => "incomplete procedure"
  | unnamedStruct _ _ => "unnamed struct"
  | misplacedComma _ _ => "unexpected comma"
  | qualifiedPath _ => "unsupported path"
  | invalidTarget _ _ => "assignment"
  | unclosed _ _ => "unclosed delimiter"
  | notOneCharacter _ _ _ => "expected a single character"

/-- The labels of the reports about a token that is not taken. -/
def pendingLabels : List String :=
  ["unexpected token", "expected a declaration or an expression", "unexpected comma"]

/-- All labels of places that reports are about. -/
def labels : List String :=
  pendingLabels ++ ["misplaced variadic marker", "unnamed procedure",
    "expected an identifier or an operator", "expected a procedure declaration to start here",
    "incomplete procedure", "unnamed struct", "unsupported path", "assignment",
    "unclosed delimiter", "expected a single character"]

theorem label_mem_labels (error : ParseError) : error.label ∈ labels := by
  cases error <;> simp [label, labels, pendingLabels]

/-- The report is about a token that is not taken. -/
def IsPending (error : ParseError) : Prop := error.label ∈ pendingLabels

theorem exists_noNode {error : ParseError}
    (same : error.label = "expected a declaration or an expression") :
    ∃ actual, error = .noNode actual := by
  cases error with
  | noNode actual => exact ⟨actual, rfl⟩
  | _ => simp [label] at same

theorem exists_highlight (error : ParseError) :
    ∃ role, ⟨error.place, role, some error.label⟩ ∈ error.diagnostic.highlights := by
  cases error with
  | unexpected _ _ demand => exact ⟨.primary, by cases demand <;> simp [diagnostic, explain, place, label]⟩
  | incompleteProcedure missing _ _ =>
    exact ⟨.primary, by cases missing <;> simp [diagnostic, explain, place, label]⟩
  | invalidTarget _ _ => exact ⟨.secondary, by simp [diagnostic, explain, place, label]⟩
  | _ => exact ⟨.primary, by simp [diagnostic, explain, place, label]⟩

/-- How the other places are labeled that help to understand a report. -/
def asides : List String :=
  [Demand.externalDeclaration, .structDeclaration, .loadDirective].map Demand.label ++
    ["expected a name before the parameter list", "found neither a name nor a parameter list",
      "expected a parameter list here", "expected ‘=’ or ‘\x7b’ here",
      "expected a name before the fields", "cannot be assigned to", "end of input reached here",
      "required by this directive"]

theorem place_or_aside {error : ParseError} {highlight : Highlight}
    (member : highlight ∈ error.diagnostic.highlights) :
    (highlight.span = error.place ∧ highlight.label = some error.label) ∨
      ∃ aside ∈ asides, highlight.label = some aside := by
  -- the highlights of a diagnostic are listed, the first label of each being one that is known
  cases error with
  | noNode _ | misplacedVarargs _ | invalidProcedureName _ | misplacedComma _ _
  | qualifiedPath _ =>
    obtain rfl : highlight = _ := by simpa [diagnostic, explain] using member
    exact .inl ⟨rfl, rfl⟩
  | unnamedProcedure _ _ | noProcedure _ _ | unnamedStruct _ _ | invalidTarget _ _ | unclosed _ _
  | notOneCharacter _ _ _ =>
    obtain rfl | rfl : highlight = _ ∨ highlight = _ := by simpa [diagnostic, explain] using member
    all_goals simp [place, label, asides]
  | incompleteProcedure missing _ _ =>
    cases missing with
    | type | body =>
      obtain rfl | rfl : highlight = _ ∨ highlight = _ := by
        simpa [diagnostic, explain] using member
      all_goals simp [place, label, asides]
  | unexpected _ _ demand =>
    cases demand with
    | none =>
      obtain rfl : highlight = _ := by simpa [diagnostic, explain] using member
      exact .inl ⟨rfl, rfl⟩
    | some demand =>
      obtain rfl | rfl : highlight = _ ∨ highlight = _ := by
        simpa [diagnostic, explain] using member
      · cases demand.1 <;> simp [asides]
      · exact .inl ⟨rfl, rfl⟩

/-- Reports with one diagnostic are about one place, which they label in one way. -/
theorem anchor_eq {error other : ParseError} (same : error.diagnostic = other.diagnostic) :
    error.place = other.place ∧ error.label = other.label := by
  obtain ⟨role, member⟩ := exists_highlight error
  rw [same] at member
  rcases place_or_aside member with ⟨sameSpan, sameLabel⟩ | ⟨aside, known, sameLabel⟩
  · exact ⟨sameSpan, Option.some.inj sameLabel⟩
  · -- no aside is labeled like a place that a report is about
    have distinct : ∀ aside ∈ asides, aside ∉ labels := by decide
    exact absurd (Option.some.inj sameLabel ▸ label_mem_labels error) (distinct aside known)

end ParseError

end Cadence
