import Cadence.Proofs.Parse.Results
import Cadence.Proofs.Token.Honesty
import Cadence.Resolution.Error
import Cadence.Session.Loading

/-!
# What the passes report

Whatever is reported for the tokens or the trees of a file is an error, and so a file is tainted
exactly if errors are reported for it. Only the resolution of names reports the errors of its own
kind.
-/
namespace Cadence

open Source (File)

namespace Diagnostic

/-- The diagnostic is one of those that the resolution of names reports. -/
def IsOfResolution (diagnostic : Diagnostic) : Prop :=
  diagnostic.code ∈ [some ErrorCode.e020, some .e021, some .e022, some .e023]

/-- What counts for the success of a session: whether it is an error, and of which kind. -/
def standing (diagnostic : Diagnostic) : Severity × Option ErrorCode :=
  (diagnostic.severity, diagnostic.code)

variable (diagnostic : Diagnostic)

@[simp]
theorem standing_highlight (highlight : Highlight) :
    (diagnostic.highlight highlight).standing = diagnostic.standing := rfl

@[simp]
theorem standing_pointAt (span : Source.Span) (label : String) :
    (diagnostic.pointAt span label).standing = diagnostic.standing := rfl

@[simp]
theorem standing_pointAtUnlabeled (span : Source.Span) :
    (diagnostic.pointAtUnlabeled span).standing = diagnostic.standing := rfl

@[simp]
theorem standing_seeAlso (span : Source.Span) (label : String) :
    (diagnostic.seeAlso span label).standing = diagnostic.standing := rfl

@[simp]
theorem standing_note (text : String) : (diagnostic.note text).standing = diagnostic.standing := rfl

@[simp]
theorem standing_help (text : String) : (diagnostic.help text).standing = diagnostic.standing := rfl

@[simp]
theorem standing_error (code : ErrorCode) (message : String) :
    (error code message).standing = (.error, some code) := rfl

/-- A diagnostic that stops a session before names are resolved. -/
def IsEarlyError : Prop := diagnostic.severity = .error ∧ ¬ diagnostic.IsOfResolution

end Diagnostic

theorem LexError.isEarlyError_diagnostic (error : LexError) : error.diagnostic.IsEarlyError := by
  have standing : error.diagnostic.standing = (.error, some error.fault.code) := by
    simp [diagnostic]
  obtain ⟨severity, code⟩ := Prod.mk.inj standing
  refine ⟨severity, ?_⟩
  rw [Diagnostic.IsOfResolution, code]
  cases error.fault <;> simp [LexFault.code]

theorem ParseError.standing_explain (error : ParseError) (diagnostic : Diagnostic) :
    (error.explain diagnostic).standing = diagnostic.standing := by
  cases error with
  | unexpected expected actual demand => cases demand <;> simp [explain]
  | incompleteProcedure part keyword actual => cases part <;> simp [explain]
  | noNode | misplacedVarargs | unnamedProcedure | invalidProcedureName | noProcedure | unnamedStruct
  | misplacedComma | qualifiedPath | invalidTarget | unclosed | notOneCharacter => simp [explain]

theorem ParseError.isEarlyError_diagnostic (error : ParseError) : error.diagnostic.IsEarlyError := by
  obtain ⟨severity, code⟩ := Prod.mk.inj (error.standing_explain
    { severity := .error, code := error.code?, message := some error.message })
  refine ⟨severity, ?_⟩
  rw [Diagnostic.IsOfResolution, diagnostic, code]
  cases error <;> simp [code?]

theorem ResolutionError.severity_diagnostic (error : ResolutionError) :
    error.diagnostic.severity = .error := by
  cases error with
  | undefinedName name lookalike => cases lookalike <;> rfl
  | notAType name declaration => rfl
  | noFields field target type => rfl
  | undefinedField struct field lookalike => cases lookalike <;> rfl

/-- There is an error to report exactly if one is reported. -/
theorem ne_nil_iff_exists_error {α : Type} {diagnostic : α → Diagnostic}
    (early : ∀ error, (diagnostic error).IsEarlyError) (errors : List α) :
    errors ≠ [] ↔ ∃ reported ∈ errors.map diagnostic, reported.severity.isError = true := by
  constructor
  · intro some
    obtain ⟨error, member⟩ := List.exists_mem_of_ne_nil errors some
    refine ⟨diagnostic error, List.mem_map_of_mem member, ?_⟩
    rw [(early error).1]
    rfl
  · rintro ⟨_, member, _⟩
    obtain ⟨error, present, _⟩ := List.mem_map.mp member
    exact List.ne_nil_of_mem present

/-- The tokens of a file are tainted exactly if an error is reported for them. -/
theorem Lexed.tainted_iff_exists_error (file : File) :
    (ofFile file).tainted = true ↔
      ∃ diagnostic ∈ (ofFile file).diagnostics, diagnostic.severity.isError = true :=
  (tainted_iff file).trans (ne_nil_iff_exists_error LexError.isEarlyError_diagnostic _)

/-- The trees of a file are tainted exactly if an error is reported for them. -/
theorem Parsed.tainted_iff_exists_error (file : File) (tokens : List Token) :
    (ofTokens file tokens).tainted = true ↔
      ∃ diagnostic ∈ (ofTokens file tokens).diagnostics, diagnostic.severity.isError = true := by
  have honest := (Parser.nodes.reaches (start file tokens)).honest (ParseState.isHonest_fresh _ _)
  exact honest.trans (ne_nil_iff_exists_error ParseError.isEarlyError_diagnostic _)

end Cadence
