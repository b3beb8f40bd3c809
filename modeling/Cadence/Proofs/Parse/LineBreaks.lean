import Cadence.Proofs.Diagnostic.Order
import Cadence.Proofs.Parse.Alike
import Cadence.Proofs.Parse.Language

/-!
# Layout matters through line breaks only

Of the text between two tokens a parser sees whether there is a line feed in it. Two files that have
the same tokens in order, with line breaks between the same ones, are therefore parsed alike: spans
reach from and to corresponding tokens, and errors are about corresponding tokens.
-/
namespace Cadence

open Source (File Span)

/-- Whether there is a line feed between each token and the next one. -/
def lineBreaks (file : File) (tokens : List Token) : List Bool :=
  List.zipWith (fun before after => ((gap? file before after).getD []).contains '\n') tokens tokens.tail

/-- Tokens of two lists belong together if as many stand in front of them, and spans if they reach from
one such token to another. -/
def Correspondence.byNumber {left right : List Token}
    (same : left.map Token.lexeme = right.map Token.lexeme) : Correspondence where
  tokens token token' := ∃ number : Nat, left[number]? = some token ∧ right[number]? = some token'
  spans span span' := ∃ first last first' last',
    (∃ number : Nat, left[number]? = some first ∧ right[number]? = some first') ∧
    (∃ number : Nat, left[number]? = some last ∧ right[number]? = some last') ∧
    span = first.span.through last.span ∧ span' = first'.span.through last'.span
  lexeme_eq := by
    rintro token token' ⟨number, found, found'⟩
    have known := congrArg (·[number]?) same
    simpa [found, found'] using known
  span together := ⟨_, _, _, _, together, together, rfl, rfl⟩
  through := by
    rintro _ _ _ _ ⟨first, _, first', _, starts, _, rfl, rfl⟩ ⟨_, last, _, last', _, stops, rfl, rfl⟩
    exact ⟨first, last, first', last', starts, stops, rfl, rfl⟩

theorem Correspondence.rel_byNumber {left right : List Token}
    (same : left.map Token.lexeme = right.map Token.lexeme) :
    List.Forall₂ (byNumber same).tokens left right := by
  refine List.forall₂_iff_get.mpr ⟨by simpa using congrArg List.length same, ?_⟩
  exact fun number isLeft isRight =>
    ⟨number, List.getElem?_eq_getElem isLeft, List.getElem?_eq_getElem isRight⟩

section Layout

variable {c : Correspondence} {left right : File}

theorem rel_placeAfter {tokens tokens' : List Token} (together : List.Forall₂ c.tokens tokens tokens')
    {before before' : Token}
    (breaks : lineBreaks left (before :: tokens) = lineBreaks right (before' :: tokens')) :
    List.Forall₂ (PlacedToken.Alike c) (placeAfter left before tokens)
      (placeAfter right before' tokens') := by
  induction together generalizing before before' with
  | nil => exact .nil
  | cons first _ ih =>
    obtain ⟨own, others⟩ := List.cons.inj breaks
    exact .cons ⟨first, congrArg (!·) own⟩ (ih others)

/-- Tokens with line breaks between the same ones are alike to a parser. -/
theorem rel_placeTokens {tokens tokens' : List Token} (together : List.Forall₂ c.tokens tokens tokens')
    (breaks : lineBreaks left tokens = lineBreaks right tokens') :
    List.Forall₂ (PlacedToken.Alike c) (placeTokens left tokens) (placeTokens right tokens') := by
  cases together with
  | nil => exact .nil
  | cons first rest => exact .cons ⟨first, rfl⟩ (rel_placeAfter rest breaks)

/-- Errors that belong together are reported with the same code, at places that belong together. -/
theorem ParseError.Alike.reported {error error' : ParseError} (alike : error.Alike c error') :
    error.diagnostic.code = error'.diagnostic.code ∧
      Option.Rel c.spans error.diagnostic.primarySpan? error'.diagnostic.primarySpan? := by
  cases alike with
  | unexpected here reason =>
    cases reason <;>
      exact ⟨rfl, by simp [diagnostic, explain, Diagnostic.primarySpan?_pointAt, c.span here]⟩
  | @incompleteProcedure missing _ _ _ _ keyword here =>
    cases missing <;>
      exact ⟨rfl, by simp [diagnostic, explain, Diagnostic.primarySpan?_pointAt, c.span keyword]⟩
  | noNode here | misplacedVarargs here | invalidProcedureName here | misplacedComma here =>
    exact ⟨rfl, by simp [diagnostic, explain, Diagnostic.primarySpan?_pointAt, c.span here]⟩
  | unnamedProcedure here _ | noProcedure here _ | unnamedStruct here _ | unclosed here _
  | notOneCharacter here _ =>
    exact ⟨rfl, by simp [diagnostic, explain, Diagnostic.primarySpan?_pointAt, c.span here]⟩
  | qualifiedPath together | invalidTarget together _ =>
    exact ⟨rfl, by simp [diagnostic, explain, Diagnostic.primarySpan?_pointAt, together]⟩

end Layout

/-- Two files, wherever they lie, are parsed alike if they have the same tokens in order, apart from
where and how these are written, and there are line breaks between the same ones. The trees are the
same but for the spans, which reach from and to corresponding tokens; both files are tainted or none;
and the same errors are reported in the same order, with the same codes and at corresponding places. -/
theorem parsing_depends_on_line_breaks (left right : File)
    (same : (Lexed.ofFile left).tokens.map Token.lexeme = (Lexed.ofFile right).tokens.map Token.lexeme)
    (breaks : lineBreaks left (Lexed.ofFile left).tokens = lineBreaks right (Lexed.ofFile right).tokens) :
    (Parsed.ofFile left).Alike (.byNumber same) (Parsed.ofFile right) ∧
      List.Forall₂ (fun diagnostic diagnostic' => diagnostic.code = diagnostic'.code ∧
          Option.Rel (Correspondence.byNumber same).spans diagnostic.primarySpan?
            diagnostic'.primarySpan?)
        (Parsed.ofFile left).diagnostics (Parsed.ofFile right).diagnostics := by
  have alike : (Parsed.ofFile left).Alike (.byNumber same) (Parsed.ofFile right) := by
    refine Parsed.alike_ofTokens ?_
    rw [endTokens_ofFile, endTokens_ofFile]
    exact rel_placeTokens (Correspondence.rel_byNumber same) breaks
  exact ⟨alike, List.rel_map (fun _ _ together => together.reported) alike.errors⟩

/-- A call that breaks off in front of a sign, and the same call elsewhere, with more space and a comment
in front of the line break. -/
theorem broken_call_with_comment :
    let left : File := ⟨.anonymous, "f(1\n-2)".toList, 1⟩
    let right : File := ⟨.anonymous, "f ( 1 /# one\n\n  - 2)".toList, 20⟩
    ∃ same : (Lexed.ofFile left).tokens.map Token.lexeme = (Lexed.ofFile right).tokens.map Token.lexeme,
      lineBreaks left (Lexed.ofFile left).tokens = lineBreaks right (Lexed.ofFile right).tokens ∧
      (Parsed.ofFile left).Alike (.byNumber same) (Parsed.ofFile right) := by
  intro left right
  have read : (Lexed.ofFile left).tokens.map Token.lexeme = (Lexed.ofFile right).tokens.map Token.lexeme ∧
      lineBreaks left (Lexed.ofFile left).tokens = lineBreaks right (Lexed.ofFile right).tokens := by
    decide +kernel
  obtain ⟨same, breaks⟩ := read
  exact ⟨same, breaks, (parsing_depends_on_line_breaks left right same breaks).1⟩

end Cadence
