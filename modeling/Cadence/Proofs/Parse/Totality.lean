import Cadence.Proofs.Parse.Pointing
import Cadence.Proofs.Parse.Reporting

/-!
# Parsing comes to its end whatever it is given

However many tokens of a file are parsed, nothing fails in a way that is not reported. The current
token and the one behind it are always there. Every loop either ends or takes a token, so that parsing
goes on until the end of the input and stops there. The text between two neighbouring tokens can be
looked at, and what is put together from two spans does not end before it starts.
-/
namespace Cadence

open Source (File Span)

/-- The first tokens of a file as they are parsed, with the end of the input behind them. -/
def firstTokens (file : File) (count : Nat) : List Token :=
  endTokens file ((Lexed.ofFile file).tokens.take count)

section Tokens

variable (file : File) (count : Nat)

/-- The end of the input that is put behind the first tokens is the one that was read. -/
theorem exists_firstTokens : ∃ front, (Lexed.ofFile file).tokens = front ++ [File.ending file] ∧
    firstTokens file count = front.take count ++ [File.ending file] ∧
    ∀ token ∈ front, token.lexeme ≠ .endOfInput := by
  obtain ⟨front, same, facts⟩ := (Lexed.laidOut_ofText file.start file.content).exists_front
  have same : (Lexed.ofFile file).tokens = front ++ [File.ending file] := same
  have plain (token) (member : token ∈ front) := (facts token member).1
  refine ⟨front, same, ?_, plain⟩
  rw [firstTokens, same]
  rcases Nat.lt_or_ge front.length count with all | part
  · rw [List.take_of_length_le (by simp; omega), List.take_of_length_le (Nat.le_of_lt all)]
    simp [endTokens, File.ending]
  · rw [List.take_append_of_le_length part, endTokens]
    split
    next last isLast =>
      exact if_neg (plain last (List.mem_of_mem_take (List.mem_of_getLast? isLast)))
    next none =>
      rw [List.getLast?_eq_none_iff.mp none]
      rfl

theorem firstTokens_sublist : (firstTokens file count).Sublist (Lexed.ofFile file).tokens := by
  obtain ⟨front, same, first, -⟩ := exists_firstTokens file count
  rw [same, first]
  exact (List.take_sublist count front).append_right _

/-- The text between two tokens can be looked at. -/
theorem isSome_gap? {file : File} {before after : Token} (first : file.Holds before.span)
    (second : file.Holds after.span) (follows : before.span.stop ≤ after.span.start) :
    (gap? file before after).isSome = true := by
  obtain ⟨part, lies⟩ : file.Holds ⟨before.span.stop, after.span.start⟩ :=
    File.holds_iff.mpr ⟨(File.holds_iff.mp first).2.1, (File.holds_iff.mp second).1, follows⟩
  exact Option.isSome_iff_exists.mpr ⟨part, lies.slice⟩

theorem isChain_firstTokens :
    (firstTokens file count).IsChain fun before after => (gap? file before after).isSome = true := by
  have holds (token) (member : token ∈ firstTokens file count) : file.Holds token.span :=
    Parsed.holds_tokens file token ((firstTokens_sublist file count).subset member)
  have follow := (Lexed.laidOut_ofText file.start file.content).pairwise.2
  refine List.Pairwise.isChain ?_
  refine (follow.sublist (firstTokens_sublist file count)).imp_of_mem fun first second follows => ?_
  exact isSome_gap? (holds _ first) (holds _ second) follows

/-- What is ahead where parsing starts are the first tokens, the end of the input left out. -/
theorem map_token_ahead_start (tokens : List Token) :
    (Parsed.start file tokens).ahead.map PlacedToken.token = (endTokens file tokens).dropLast := by
  rw [← map_token_placeTokens file (endTokens file tokens), ← List.map_dropLast]
  rfl

/-- No token ahead is the end of the input. -/
theorem plain_ahead_start :
    ∀ placed ∈ (Parsed.start file ((Lexed.ofFile file).tokens.take count)).ahead,
      placed.token.lexeme ≠ .endOfInput := by
  obtain ⟨front, -, first, plain⟩ := exists_firstTokens file count
  intro placed member
  have ahead := map_token_ahead_start file ((Lexed.ofFile file).tokens.take count)
  rw [← firstTokens, first, List.dropLast_concat] at ahead
  exact plain _ (List.mem_of_mem_take (ahead ▸ List.mem_map_of_mem member))

/-- The tokens ahead do not end before they start, and they follow each other. -/
theorem areOrdered_ahead_start :
    AreOrdered (Parsed.start file ((Lexed.ofFile file).tokens.take count)).ahead := by
  have ahead := map_token_ahead_start file ((Lexed.ofFile file).tokens.take count)
  have sublist := (List.dropLast_sublist _).trans (firstTokens_sublist file count)
  rw [firstTokens, ← ahead] at sublist
  refine ⟨fun placed member => ?_, ?_⟩
  · have holds := Parsed.holds_tokens file _ (sublist.subset (List.mem_map_of_mem member))
    exact (File.holds_iff.mp holds).2.2
  · have follow := (Lexed.laidOut_ofText file.start file.content).pairwise.2
    exact List.pairwise_map.mp (follow.sublist sublist)

end Tokens

/-- In the state, the current token and the one behind it are there: they have the index up to which
the tokens are taken and the next one, if there is a next one. -/
def ParseState.HasIndex (tokens : List Token) (state : ParseState) : Prop :=
  ∃ index, tokens[index]? = some state.current.token ∧
    tokens[min (index + 1) (tokens.length - 1)]? = some (state.ahead.tail.headD state.finish).token

theorem ParseState.hasIndex {first state : ParseState} (reaches : first.Reaches state) :
    state.HasIndex first.rest := by
  obtain ⟨front, split⟩ := rest_suffix reaches
  refine ⟨front.length, ?_⟩
  rw [← split, rest, current]
  cases state.ahead with
  | nil => simp
  | cons first others => cases others <;> simp

namespace Parser

/-- In the state, each loop of the parser ends, fails, or goes on with fewer tokens ahead. What nests
within the loop may nest more deeply than there are tokens. -/
structure StepsOn (state : ParseState) : Prop where
  nodes : Steps nodesStep state
  block : ∀ depth > state.ahead.length, ∀ opening,
    Steps (blockStep (innerWithin depth).node opening) state
  fields : ∀ opening, Steps (fieldStep opening) state
  arguments : ∀ depth > state.ahead.length, ∀ opening,
    Steps (commaSeparated.step opening (.punctuation .closingRoundBracket)
      (innerWithin depth).expression) state
  parameters : ∀ depth > state.ahead.length, ∀ opening,
    Steps (commaSeparated.step opening (.punctuation .closingRoundBracket)
      (parameter (typeWithin depth))) state
  operators : ∀ depth > state.ahead.length, ∀ nesting least,
    Steps (climbStep (climbWithin (operandOf (innerWithin depth)) nesting) least) state
  suffixes : ∀ depth > state.ahead.length, Steps (suffixStep (innerWithin depth)) state
  path : Steps pathStep state

theorem stepsOn {state : ParseState} (ended : state.IsEnded) : StepsOn state where
  nodes := steps_nodesStep ended
  block depth short opening :=
    steps_blockStep ended ((takeBelow_innerWithin depth).node state ended short)
  fields opening := steps_fieldStep ended opening
  arguments depth short opening :=
    steps_commaSeparated ended (by simp) ((takeBelow_innerWithin depth).expression state ended short)
  parameters depth short opening :=
    steps_commaSeparated ended (by simp) (takes_parameter (takes_typeWithin depth) state ended short)
  operators depth short nesting least := by
    refine steps_climbStep ended (fun precedence after afterEnded less => ?_) least
    have takes := takes_climbWithin (takes_operandOf (takeBelow_innerWithin depth)) nesting precedence
    exact (takes after afterEnded (by omega)).ends
  suffixes depth short := steps_suffixStep (takeBelow_innerWithin depth) ended (by omega)
  path := steps_pathStep ended

section Spans

variable {α β : Type} {tokens : List PlacedToken}

/-- Where a step of a loop goes on somewhere in the tokens, behind what it stands for so far, what it
has put together does not end before it starts. -/
def StepsForward (step : α → Parser (Step α β)) (stands : List PlacedToken → α → Prop)
    (spanOf : α → Span) (tokens : List PlacedToken) : Prop :=
  ∀ past state, ∀ before : ParseState, before.IsEnded → past ++ before.ahead <:+ tokens →
    stands past state → ∀ next, ((step state).run before).1 = some (.more next) →
      (spanOf next).IsOrdered

theorem Reads.stepsForward {step : α → Parser (Step α β)} {stands : List PlacedToken → α → Prop}
    {post : List PlacedToken → β → Prop} {spanOf : α → Span}
    (reads : ∀ {state past before}, stands past state →
      (step state).Reads before past (AfterStep stands post))
    (exactly : ∀ own found, stands own found → IsSpanOf (spanOf found) own)
    (ordered : AreOrdered tokens) : StepsForward step stands spanOf tokens := by
  intro past state before ended suffix known next same
  have whole := ordered.of_sublist suffix.sublist
  obtain ⟨own, split, holds⟩ := (reads known ended whole).2 _ same
  rw [split, ← List.append_assoc] at whole
  exact (whole.of_sublist (List.sublist_append_left _ _)).isOrdered (exactly _ _ holds)

/-- Nothing that is put together from two spans somewhere in the tokens ends before it starts: not where
the one stands for tokens behind those of the other, and so not in what any parser yields, even if that
is given up later. -/
structure PutsForward (tokens : List PlacedToken) : Prop where
  between : ∀ {left right front between behind}, front ++ between ++ behind <:+: tokens →
    IsSpanOf left front → IsSpanOf right behind → (left.through right).IsOrdered
  expression : ∀ depth, (innerWithin depth).expression.SpansForward Expr.span tokens
  operand : ∀ depth, (innerWithin depth).operand.SpansForward Expr.span tokens
  primary : ∀ depth, (primary (innerWithin depth)).SpansForward Expr.span tokens
  node : ∀ depth, (innerWithin depth).node.SpansForward Node.span tokens
  type : type.SpansForward Spanned.span tokens
  signature : signature.SpansForward Signature.span tokens
  operators : ∀ depth nesting least, StepsForward
    (climbStep (climbWithin (operandOf (innerWithin depth)) nesting) least)
    (fun own left => left.Covers own) Expr.span tokens
  suffixes : ∀ depth, StepsForward (suffixStep (innerWithin depth))
    (fun own operand => operand.Covers own) Expr.span tokens
  path : StepsForward pathStep (fun own span => IsSpanOf span own) id tokens

theorem putsForward (ordered : AreOrdered tokens) : PutsForward tokens where
  between := ordered.isOrdered_through
  expression depth :=
    (isSpelled_innerWithin depth).expression.spansForward (fun _ _ covers => covers.1) ordered
  operand depth :=
    (isSpelled_innerWithin depth).operand.spansForward (fun _ _ covers => covers.1) ordered
  primary depth :=
    (spells_primary (isSpelled_innerWithin depth)).spansForward (fun _ _ covers => covers.1) ordered
  node depth := (isSpelled_innerWithin depth).node.spansForward (fun _ _ covers => covers.1) ordered
  type := spells_type.spansForward (fun _ _ covers => covers.isSpanOf) ordered
  signature := spells_signature.spansForward (fun _ _ covers => covers.1) ordered
  operators depth nesting least :=
    have operands := spells_operandOf (isSpelled_innerWithin depth)
    Reads.stepsForward (reads_climbStep (spells_climbWithin operands nesting) least)
      (fun _ _ covers => covers.1) ordered
  suffixes depth :=
    Reads.stepsForward (reads_suffixStep (isSpelled_innerWithin depth)) (fun _ _ covers => covers.1)
      ordered
  path := Reads.stepsForward reads_pathStep (fun _ _ isSpan => isSpan) ordered

end Spans

end Parser

/-- What a file is read as can be looked up in it: the text under each token is its image, and there is
a text under everything that is reported. -/
structure Lexed.LiesIn (file : File) (lexed : Lexed) : Prop where
  tokens : ∀ token ∈ lexed.tokens,
    (file.toLocal? token.span).bind file.slice? = some token.image.toList
  errors : ∀ error ∈ lexed.errors, ((file.toLocal? error.span).bind file.slice?).isSome = true

theorem Lexed.liesIn_ofFile (file : File) : (ofFile file).LiesIn file where
  tokens := by
    obtain ⟨front, same, facts⟩ := (laidOut_ofText file.start file.content).exists_front
    have same : (ofFile file).tokens = _ := same
    rw [same]
    refine List.forall_mem_append.mpr ⟨fun token member => (facts token member).2.2.slice, ?_⟩
    -- the end of the input has nothing under it
    rw [List.forall_mem_singleton]
    exact LiesUnder.slice ⟨file.content, [], by simp, by simp [Span.emptyAt]⟩
  errors := by
    intro error member
    obtain ⟨part, -, lies⟩ := (errors_ofFile file).1 error member
    exact Option.isSome_iff_exists.mpr ⟨part, lies.slice⟩

/-- Whatever file is read and however many of its tokens are parsed, reading and parsing come to an end
and nothing fails but in a report. The run of the parser stops at the end of the input, with all tokens
taken. In each state that it can come to, the current token and the next one are there, and each loop
ends or takes a token. The text between two neighbouring tokens can always be looked at, and no span is
put together that ends before it starts, neither in the trees and the reports nor in what is given up. -/
theorem parsing_comes_to_an_end (file : File) (count : Nat) :
    let tokens := firstTokens file count
    let first := Parsed.start file ((Lexed.ofFile file).tokens.take count)
    (Lexed.ofFile file).LiesIn file ∧
    tokens.IsChain (fun before after => (gap? file before after).isSome = true) ∧
    (∃ nodes last, Parser.nodes.run first = (some nodes, last) ∧ last.exhausted = false ∧
      last.ahead = [] ∧ last.current.token.lexeme = .endOfInput ∧
      ∀ error ∈ last.errors, error.HasOrderedSpan) ∧
    (∀ state, first.Reaches state → state.HasIndex tokens ∧ Parser.StepsOn state) ∧
    Parser.PutsForward first.ahead := by
  intro tokens first
  have ended : first.IsEnded := Parsed.isEnded_start file _
  have ordered := areOrdered_ahead_start file count
  refine ⟨Lexed.liesIn_ofFile file, isChain_firstTokens file count, ?_, fun state reaches => ?_,
    Parser.putsForward ordered⟩
  · have lasts := (Parser.ends_nodes ended).1
    obtain ⟨nodes, same, taken⟩ := Parser.exists_nodes (plain_ahead_start file count) lasts
    obtain ⟨errors, -⟩ := Parser.spells_nodes first ended ordered
    refine ⟨nodes, _, Prod.ext same rfl, lasts, taken, ?_, fun error member =>
      (errors error member).resolve_left List.not_mem_nil⟩
    have taken : (Parser.nodes.run first).2.ahead = [] := taken
    rw [ParseState.current, taken]
    exact ended.of_reaches (Parser.nodes.reaches first)
  · have index := ParseState.hasIndex reaches
    rw [Parsed.rest_start] at index
    exact ⟨index, Parser.stepsOn (ended.of_reaches reaches)⟩

end Cadence
