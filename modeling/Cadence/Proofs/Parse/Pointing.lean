import Cadence.Proofs.Diagnostic.Rendering
import Cadence.Proofs.Parse.Alike
import Cadence.Proofs.Parse.Places
import Cadence.Proofs.Token.Faults

/-!
# What is said of a file points into it

The tokens of a file lie in it, the end of the input as an empty place at its end. So do the places
in its trees, which are those of runs of tokens, and the places that reports point at. A report is
about tokens and about spans that are put together from those of tokens, which
`Correspondence.within` keeps track of.
-/
namespace Cadence

open Source (File Span)

namespace Parsed

variable (file : File)

theorem holds_tokens : ∀ token ∈ (Lexed.ofFile file).tokens, file.Holds token.span := by
  obtain ⟨front, same, facts⟩ := (Lexed.laidOut_ofText file.start file.content).exists_front
  have same : (Lexed.ofFile file).tokens = _ := same
  intro token member
  rw [same] at member
  rcases List.mem_append.mp member with inFront | isLast
  · exact ⟨_, (facts token inFront).2.2⟩
  · rw [List.mem_singleton.mp isLast]
    exact file.holds_end

/-- All tokens that are parsed lie in the file. -/
theorem holds_placed : ∀ placed ∈ placeTokens file (endTokens file (Lexed.ofFile file).tokens),
    file.Holds placed.token.span := by
  intro placed member
  have known : placed.token ∈ endTokens file (Lexed.ofFile file).tokens := by
    rw [← map_token_placeTokens file (endTokens file _)]
    exact List.mem_map_of_mem member
  rw [endTokens_ofFile] at known
  exact holds_tokens file _ known

/-- The places in the trees of a file lie in it. -/
theorem holds_places : ∀ span ∈ Node.placesAll (ofFile file).nodes, file.Holds span := by
  intro span member
  obtain ⟨own, inside, isSpan⟩ := areSpansIn_nodes file span member
  have ordered := (areOrdered_inputOf file).1.of_sublist inside.sublist
  have holds (placed) (member : placed ∈ own) : file.Holds placed.token.span := by
    apply holds_tokens
    rw [← map_token_placeTokens file (Lexed.ofFile file).tokens]
    exact List.mem_map_of_mem (List.dropLast_subset _ (inside.subset member))
  obtain ⟨first, isFirst, starts⟩ := isSpan.startsAt
  obtain ⟨last, isLast, ends⟩ := isSpan.endsAt
  have front := File.holds_iff.mp (holds first (List.mem_of_mem_head? isFirst))
  have back := File.holds_iff.mp (holds last (List.mem_of_mem_getLast? isLast))
  exact File.holds_iff.mpr ⟨starts ▸ front.1, ends ▸ back.2.1, ordered.isOrdered isSpan⟩

end Parsed

/-- Tokens in a file, and spans from one boundary of it to another one. Each belongs to itself. -/
def Correspondence.within (file : File) : Correspondence where
  tokens left right := left = right ∧ file.Holds left.span
  spans left right := left = right ∧ file.HasBoundary left.start ∧ file.HasBoundary left.stop
  lexeme_eq same := congrArg Token.lexeme same.1
  span same := ⟨congrArg Token.span same.1, (File.holds_iff.mp same.2).1, (File.holds_iff.mp same.2).2.1⟩
  through first second := ⟨by rw [first.1, second.1], first.2.1, second.2.2⟩

/-- What is about tokens in a file, and about spans between such, points into the file. -/
theorem ParseError.Alike.allPlaces {file : File} {error other : ParseError}
    (alike : error.Alike (.within file) other) (ordered : error.HasOrderedSpan) :
    error.diagnostic.AllPlaces file.Holds := by
  have start : Diagnostic.AllPlaces file.Holds
      { severity := .error, code := error.code?, message := some error.message } :=
    Diagnostic.allPlaces_of_nil rfl
  cases alike with
  | unexpected actual demand =>
    cases demand with
    | none => exact Diagnostic.allPlaces_pointAt.mpr ⟨actual.2, start⟩
    | some reason => simp [diagnostic, explain, actual.2, reason.2.2, start]
  | noNode actual | misplacedVarargs actual | invalidProcedureName actual | misplacedComma actual =>
    exact Diagnostic.allPlaces_pointAt.mpr ⟨actual.2, start⟩
  | unnamedProcedure keyword actual | noProcedure keyword actual | unnamedStruct keyword actual
  | unclosed keyword actual | notOneCharacter keyword actual =>
    simp [diagnostic, explain, keyword.2, actual.2, start]
  | @incompleteProcedure missing _ _ _ _ keyword actual =>
    cases missing <;> simp [diagnostic, explain, keyword.2, actual.2, start]
  | qualifiedPath path =>
    exact Diagnostic.allPlaces_pointAt.mpr
      ⟨File.holds_iff.mpr ⟨path.2.1, path.2.2, ordered⟩, start⟩
  | invalidTarget target sign =>
    have holds := File.holds_iff.mpr ⟨target.2.1, target.2.2, ordered⟩
    simp [diagnostic, explain, holds, sign.2, start]

namespace Parsed

variable (file : File)

/-- What is reported about the nodes of a file points into it. -/
theorem allPlaces_errors :
    ∀ error ∈ (ofFile file).errors, error.diagnostic.AllPlaces file.Holds := by
  have placed : List.Forall₂ (PlacedToken.Alike (.within file))
      (placeTokens file (endTokens file (Lexed.ofFile file).tokens))
      (placeTokens file (endTokens file (Lexed.ofFile file).tokens)) :=
    List.forall₂_same.mpr fun placed member => ⟨⟨rfl, holds_placed file placed member⟩, rfl⟩
  have alike := List.forall₂_same.mp (alike_ofTokens placed).errors
  exact fun error member => (alike error member).allPlaces ((coverAll_nodes file).2 error member)

end Parsed

/-- What is reported about the text of a file points into it. -/
theorem Lexed.allPlaces_errors (file : File) :
    ∀ error ∈ (ofFile file).errors, error.diagnostic.AllPlaces file.Holds := by
  intro error member
  obtain ⟨part, -, lies⟩ := (errors_ofFile file).1 error member
  exact Diagnostic.allPlaces_highlight.mpr ⟨⟨part, lies⟩, Diagnostic.allPlaces_error⟩

end Cadence
