import Cadence.Proofs.Parse.Accuracy
import Cadence.Proofs.Parse.Reports
import Cadence.Proofs.Session.Reports
import Cadence.Proofs.Token.Faults

/-!
# What is reported on a file is reported once

The reports of a file are those on its characters and those on its tokens. Reports on characters have
classes of their own, and no two of either kind are the same but for one case: a node behind a `defer`
that starts with no fitting token is refused there, and once more where the parser goes on.
-/
namespace Cadence

open Source (File Span)

/-- What is reported while a file is split into tokens and parsed, in order. -/
def reported (file : File) : List Diagnostic :=
  (Lexed.ofFile file).diagnostics ++ (Parsed.ofFile file).diagnostics

theorem LexError.Differs.diagnostic_ne {error other : LexError} (differs : error.Differs other) :
    error.diagnostic ≠ other.diagnostic := by
  intro same
  have spans : error.span = other.span := by
    have highlights := congrArg Diagnostic.highlights same
    simp only [diagnostic, Diagnostic.highlight, Diagnostic.error, Sorted.insert, List.cons.injEq,
      Highlight.mk.injEq] at highlights
    exact highlights.1.1
  exact differs (congrArg Span.start spans) (Option.some.inj (congrArg Diagnostic.code same))

/-- The classes of reports on characters and on tokens are different ones. -/
theorem LexError.diagnostic_ne_parse (error : LexError) (other : ParseError) :
    error.diagnostic ≠ other.diagnostic := by
  intro same
  have codes : some error.fault.code = other.code? :=
    (congrArg Diagnostic.code same).trans (congrArg Prod.snd (other.standing_explain _))
  cases fault : error.fault <;> cases other <;> simp [fault, LexFault.code, ParseError.code?] at codes

/-- Reports on tokens that differ have different diagnostics, but for the refusal of a token behind a
`defer`. -/
theorem ParseError.Differs.exists_deferred {tokens : List Token} {earlier later : ParseError}
    (differs : earlier.Differs tokens later) (same : earlier.diagnostic = later.diagnostic) :
    ∃ token, earlier = .noNode token ∧ IsDeferred tokens token := by
  obtain ⟨places, labels⟩ := anchor_eq same
  exact differs (congrArg Span.start places) labels

/-- Each token of a file starts behind the one before. -/
theorem Lexed.increasing_ofFile (file : File) : (ofFile file).tokens.Pairwise
    fun earlier later => earlier.span.start < later.span.start := by
  have laidOut := laidOut_ofText file.start file.content
  obtain ⟨front, same, facts⟩ := laidOut.exists_front
  have follow := laidOut.pairwise.2
  rw [ofFile, same] at *
  obtain ⟨others, -, last⟩ := List.pairwise_append.mp follow
  -- a token that is not the last one ends behind its start
  refine List.pairwise_append.mpr ⟨others.imp_of_mem fun member _ further => ?_,
    List.pairwise_singleton _ _, fun token member ending isEnding => ?_⟩
  · exact Nat.lt_of_lt_of_le (facts _ member).2.1 further
  · exact Nat.lt_of_lt_of_le (facts token member).2.1 (last token member ending isEnding)

/-- In front of the tokens of a file, nothing is reported. -/
theorem Parsed.isSettled_start (file : File) :
    (start file (Lexed.ofFile file).tokens).IsSettled (Lexed.ofFile file).tokens := by
  have none : (start file (Lexed.ofFile file).tokens).errors = [] := rfl
  have whole := (rest_start file (Lexed.ofFile file).tokens).trans (endTokens_ofFile file)
  refine ⟨⟨isEnded_start file _, Lexed.increasing_ofFile file, ?_⟩, none ▸ .nil, ?_⟩
  · exact ⟨[], whole⟩
  · rw [none]
    exact fun _ member => absurd member List.not_mem_nil

/-- The reports on the tokens of a file differ. -/
theorem Parsed.errors_ofFile (file : File) :
    (ofFile file).errors.Pairwise (ParseError.Differs (Lexed.ofFile file).tokens) :=
  (Parser.mayPend_nodes (isSettled_start file)).distinct

/-- The reports of a file are put together from those on its characters and on its tokens, which are
never the same. -/
theorem pairwise_reported {file : File} {relation : Diagnostic → Diagnostic → Prop}
    (apart : ∀ earlier later, earlier ≠ later → relation earlier later)
    (parsed : (Parsed.ofFile file).errors.Pairwise fun earlier later =>
      relation earlier.diagnostic later.diagnostic) : (reported file).Pairwise relation := by
  have lexed := (Lexed.errors_ofFile file).2
  refine List.pairwise_append.mpr ⟨List.pairwise_map.mpr (lexed.imp fun differs => ?_),
    List.pairwise_map.mpr parsed, ?_⟩
  · exact apart _ _ differs.diagnostic_ne
  · intro first isFirst second isSecond
    obtain ⟨error, -, rfl⟩ := List.mem_map.mp isFirst
    obtain ⟨other, -, rfl⟩ := List.mem_map.mp isSecond
    exact apart _ _ (error.diagnostic_ne_parse other)

theorem isError_of_mem_reported {file : File} {diagnostic : Diagnostic}
    (member : diagnostic ∈ reported file) : diagnostic.severity.isError = true := by
  rcases List.mem_append.mp member with isLexed | isParsed
  · obtain ⟨error, -, rfl⟩ := List.mem_map.mp isLexed
    rw [error.isEarlyError_diagnostic.1]
    rfl
  · obtain ⟨error, -, rfl⟩ := List.mem_map.mp isParsed
    rw [error.isEarlyError_diagnostic.1]
    rfl

/-- What is reported while a file is split into tokens and parsed is reported once, but for one case:
only the refusal of a token directly behind a `defer` that no node starts with may be reported again.
If there is none, as many errors are counted as diagnostics are kept. -/
theorem reported_once (file : File) :
    (reported file).Pairwise (fun earlier later => earlier = later →
      ∃ token, IsDeferred (Lexed.ofFile file).tokens token ∧
        earlier = (ParseError.noNode token).diagnostic) ∧
    ((∀ token, IsDeferred (Lexed.ofFile file).tokens token →
        .noNode token ∉ (Parsed.ofFile file).errors) →
      (reported file).Nodup ∧
        (({} : Collector).reportAll (reported file)).errorCount =
          (({} : Collector).reportAll (reported file)).diagnostics.length) := by
  have differ := Parsed.errors_ofFile file
  refine ⟨pairwise_reported (fun _ _ apart same => absurd same apart) (differ.imp ?_), fun never => ?_⟩
  · intro earlier later differs same
    obtain ⟨token, refusal, deferred⟩ := differs.exists_deferred same
    exact ⟨token, deferred, congrArg ParseError.diagnostic refusal⟩
  · have distinct : (reported file).Nodup := by
      refine pairwise_reported (fun _ _ apart => apart) (differ.imp_of_mem ?_)
      intro earlier later member _ differs same
      obtain ⟨token, rfl, deferred⟩ := differs.exists_deferred same
      exact never token deferred member
    have new : ∀ diagnostic ∈ reported file, diagnostic ∉ ({} : Collector).diagnostics := by simp
    obtain ⟨counted, kept⟩ := Collector.reportAll_of_nodup (fun _ => isError_of_mem_reported) distinct new
    exact ⟨distinct, counted.trans kept.symm⟩

/-- A file with a token that no node starts with, though not behind the `defer`. -/
def stray : File := ⟨.anonymous, "defer x )".toList, 1⟩

theorem stray_reported_once : (reported stray).Nodup ∧
    (({} : Collector).reportAll (reported stray)).errorCount =
      (({} : Collector).reportAll (reported stray)).diagnostics.length := by
  refine (reported_once stray).2 fun token deferred refused => ?_
  -- the only token that is refused is the bracket, and a name stands in front of it
  have refusals : ((Parsed.ofFile stray).errors.all fun error =>
      match error with
      | .noNode actual => actual.lexeme = .punctuation .closingRoundBracket
      | _ => true) = true := by decide +kernel
  have bracket : token.lexeme = .punctuation .closingRoundBracket :=
    of_decide_eq_true (List.all_eq_true.mp refusals _ refused)
  obtain ⟨mark, inside, isDefer⟩ := deferred
  have lexemes := inside.map Token.lexeme
  rw [List.map_cons, List.map_cons, List.map_nil, isDefer, bracket] at lexemes
  exact absurd lexemes (by decide +kernel)

/-- A file with such a token behind the `defer`. -/
def deferral : File := ⟨.anonymous, "defer )".toList, 1⟩

/-- The refusal of a token behind a `defer` is reported twice: two errors are counted, and one
diagnostic is kept. -/
theorem deferred_refusal_is_repeated : ¬ (reported deferral).Nodup ∧
    (({} : Collector).reportAll (reported deferral)).errorCount = 2 ∧
    (({} : Collector).reportAll (reported deferral)).diagnostics.length = 1 := by
  decide +kernel

end Cadence
