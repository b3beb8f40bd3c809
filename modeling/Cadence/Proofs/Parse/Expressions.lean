import Cadence.Proofs.Parse.Climbing
import Cadence.Proofs.Parse.Recognition

/-!
# Expressions are recognized

What lies within an expression is recognized below a number of tokens, as what two phrases say. Then
the expression is recognized one token above that. Which tokens can begin an expression agrees with
the table that the parsing of nodes looks it up in.
-/
namespace Cadence

open Source (Span)

/-- The names that parameters can have. -/
abbrev naming : Lexeme → Option String := Lexeme.parameterName?

section Starts

variable {expression : Phrase Expr} {node : Phrase Node}

theorem beginsWith_primaryPhrase (naming : Lexeme → Option String) :
    BeginsWith (PrimaryPhrase naming expression node)
      fun lexeme => Parser.beginsExpression lexeme = true ∧ ∀ sign, lexeme ≠ .operator sign := by
  intro input rest found derivation
  cases derivation with
  | @literal first _ _ _ isLiteral =>
    refine ⟨first, rest, rfl, ?_⟩
    generalize first.token.lexeme = lexeme at isLiteral
    cases isLiteral <;> simp [Parser.beginsExpression]
  | @character first literal _ _ _ same =>
    exact ⟨first, literal :: rest, rfl, by simp [same, Parser.beginsExpression]⟩
  | @reference first _ _ same => exact ⟨first, rest, rfl, by simp [same, Parser.beginsExpression]⟩
  | @bracketed first _ tail _ _ same =>
    exact ⟨first, tail, rfl, by simp [same, Parser.beginsExpression]⟩
  | block derivation =>
    cases derivation with
    | @intro first _ tail _ _ same =>
      exact ⟨first, tail, rfl, by simp [same, Parser.beginsExpression]⟩
  | @branches first tail _ _ _ word _ _ _ _ same isBranching =>
    refine ⟨first, tail, rfl, ?_⟩
    rw [same]
    cases isBranching <;> simp [Parser.beginsExpression]
  | @new first tail _ _ same => exact ⟨first, tail, rfl, by simp [same, Parser.beginsExpression]⟩
  | @delete first tail _ _ same => exact ⟨first, tail, rfl, by simp [same, Parser.beginsExpression]⟩
  | @defer first tail _ _ same => exact ⟨first, tail, rfl, by simp [same, Parser.beginsExpression]⟩

/-- The tokens that can begin an expression. -/
def IsExpressionStart (lexeme : Lexeme) : Prop := Parser.beginsExpression lexeme = true

theorem beginsWith_operandPhrase (naming : Lexeme → Option String) :
    BeginsWith (OperandPhrase naming expression node) IsExpressionStart := by
  intro input rest found derivation
  cases derivation with
  | @unary first tail _ sign _ same isUnary =>
    exact ⟨first, tail, rfl, by simpa [IsExpressionStart, same, Parser.beginsExpression] using isUnary⟩
  | plain derivation =>
    obtain ⟨first, tail, same, start, _⟩ := beginsWith_primaryPhrase naming _ _ _ derivation
    exact ⟨first, tail, same, start⟩

theorem beginsWith_groupedPhrase (naming : Lexeme → Option String) (least : Nat) :
    BeginsWith (GroupedPhrase (OperandPhrase naming expression node) least) IsExpressionStart := by
  intro input rest found derivation
  cases derivation with
  | intro derivation => exact beginsWith_operandPhrase naming _ _ _ derivation

/-- The tokens that can begin a node. -/
def IsNodeStart (lexeme : Lexeme) : Prop :=
  lexeme ≠ .punctuation .closingCurlyBracket ∧ lexeme ≠ .punctuation .semicolon ∧
    lexeme ≠ .endOfInput

/-- A token that begins an expression can be an element of an argument list. -/
theorem IsExpressionStart.isElementStart {lexeme : Lexeme} (start : IsExpressionStart lexeme) :
    IsElementStart (.punctuation .closingRoundBracket) lexeme := by
  refine ⟨fun closes => ?_, ?_, ?_⟩
  · cases lexeme with
    | punctuation mark =>
      cases closes
      simp [IsExpressionStart, Parser.beginsExpression] at start
    | _ => cases closes
  · rintro rfl
    simp [IsExpressionStart, Parser.beginsExpression] at start
  · rintro rfl
    simp [IsExpressionStart, Parser.beginsExpression] at start

end Starts

namespace Parser

variable {finish : PlacedToken} {input rest : List PlacedToken}

/-- The parsers for what lies within an expression recognize two phrases. -/
structure KnowsBelow (inner : Inner) (finish : PlacedToken) (expressions : Phrase Expr)
    (nodes : Phrase Node) (bound : Nat) : Prop where
  takes : TakeBelow inner bound
  expressionStarts : BeginsWith expressions IsExpressionStart
  nodeStarts : BeginsWith nodes IsNodeStart
  expression : inner.expression.RecognizesBelow finish expressions bound
  operand : inner.operand.RecognizesBelow finish (OperandPhrase naming expressions nodes) bound
  node : inner.node.RecognizesBelow finish nodes bound

/-- The closing bracket behind some elements. -/
def Closes {α : Type} (elements : List α) : Phrase (List α × Token) := fun input rest result =>
  ∃ closing, input = closing :: rest ∧
    closing.token.lexeme = .punctuation .closingCurlyBracket ∧ result = (elements, closing.token)

variable {inner : Inner} {expressions : Phrase Expr} {nodes : Phrase Node} {bound : Nat}
variable (ended : finish.token.lexeme = .endOfInput)
variable (knows : KnowsBelow inner finish expressions nodes bound)
include ended knows

theorem recognizes_arguments (opening : Token) (short : input.length < bound) :
    (commaSeparated opening (.punctuation .closingRoundBracket) inner.expression).Recognizes finish
      (ListPhrase (.punctuation .closingRoundBracket) expressions) input := by
  refine recognizes_commaSeparated ended (by simp) (by simp) (knows.takes.expression.mono short)
    (knows.expression.mono short) fun input rest found derivation => ?_
  obtain ⟨first, tail, same, start⟩ := knows.expressionStarts _ _ _ derivation
  exact ⟨first, tail, same, start.isElementStart⟩

theorem accepts_suffixStep (short : input.length < bound + 1) {operand : Expr}
    {outcome : Step Expr Expr} :
    (suffixStep inner operand).Accepts finish input rest outcome ↔
      (¬ BeginsSuffix input ∧ rest = input ∧ outcome = .done operand) ∨
      ∃ make, SuffixPhrase naming expressions input rest make ∧ outcome = .more (make operand) := by
  rw [suffixStep, accepts_token]
  constructor
  · intro accepts
    split at accepts
    next same =>
      obtain ⟨sign, tail, rfl, same⟩ := exists_cons ended same (by simp)
      obtain ⟨annotated, middle, parsed, accepts⟩ := accepts_bind.mp (accepts_advance.mp accepts)
      obtain ⟨rfl, rfl⟩ := accepts_pure.mp accepts
      exact .inr ⟨_, .cast same ((recognizes_type ended _ _).mp parsed), rfl⟩
    next same =>
      obtain ⟨opening, tail, rfl, same⟩ := exists_cons ended same (by simp)
      obtain ⟨⟨arguments, closing⟩, middle, listed, accepts⟩ :=
        accepts_bind.mp (accepts_advance.mp accepts)
      obtain ⟨rfl, rfl⟩ := accepts_pure.mp accepts
      rw [List.length_cons] at short
      have known := recognizes_arguments ended knows opening.token (show tail.length < bound by omega)
      exact .inr ⟨_, .call same ((known _ _).mp listed), rfl⟩
    next same =>
      obtain ⟨dot, tail, rfl, same⟩ := exists_cons ended same (by simp)
      obtain ⟨name, middle, named, accepts⟩ := accepts_bind.mp (accepts_advance.mp accepts)
      obtain ⟨rfl, rfl⟩ := accepts_pure.mp accepts
      obtain ⟨field, name, rest, isName, rfl⟩ := (accepts_consumeIdentifier ended).mp named
      rw [List.tail_cons] at rest
      subst rest
      exact .inr ⟨_, .field same isName, rfl⟩
    next noCast noCall noField =>
      -- none of the three suffixes begins here
      obtain ⟨rfl, rfl⟩ := accepts_pure.mp accepts
      refine .inl ⟨?_, rfl, rfl⟩
      rintro (cast | call | field)
      · exact noCast (Token.name_eq_keyword.mp ((begins_iff ended (by simp)).mp cast))
      · exact noCall (Token.name_eq_punctuation.mp ((begins_iff ended (by simp)).mp call))
      · exact noField (Token.name_eq_punctuation.mp ((begins_iff ended (by simp)).mp field))
  · rintro (⟨noSuffix, rfl, rfl⟩ | ⟨make, derivation, rfl⟩)
    · -- what does not begin a suffix ends the loop
      split
      next same =>
        exact absurd (.inl ((begins_iff ended (by simp)).mpr (Token.name_eq_keyword.mpr same))) noSuffix
      next same =>
        refine absurd (.inr (.inl ((begins_iff ended (by simp)).mpr ?_))) noSuffix
        exact Token.name_eq_punctuation.mpr same
      next same =>
        refine absurd (.inr (.inr ((begins_iff ended (by simp)).mpr ?_))) noSuffix
        exact Token.name_eq_punctuation.mpr same
      next => exact accepts_pure.mpr ⟨rfl, rfl⟩
    · cases derivation with
      | @cast sign tail _ annotated same typed =>
        simp only [List.headD_cons, same, accepts_advance, List.tail_cons]
        have parsed := (recognizes_type ended _ _).mpr typed
        exact accepts_bind.mpr ⟨annotated, rest, parsed, accepts_pure.mpr ⟨rfl, rfl⟩⟩
      | @call opening tail _ arguments closing same listed =>
        rw [List.length_cons] at short
        have known := recognizes_arguments ended knows opening.token (show tail.length < bound by omega)
        simp only [List.headD_cons, same, accepts_advance, List.tail_cons]
        exact accepts_bind.mpr ⟨_, rest, (known _ _).mpr listed, accepts_pure.mpr ⟨rfl, rfl⟩⟩
      | @field dot field _ name same isName =>
        simp only [List.headD_cons, same, accepts_advance, List.tail_cons]
        exact accepts_bind.mpr ⟨_, rest, consumeIdentifier_accepts isName, accepts_pure.mpr ⟨rfl, rfl⟩⟩

theorem accepts_suffixes (short : input.length < bound + 1) {operand whole : Expr} :
    (suffixes inner operand).Accepts finish input rest whole ↔
      ∃ make, SuffixesPhrase naming expressions input rest make ∧ whole = make operand := by
  rw [suffixes, accepts_loop ended fun before known fewer => steps_suffixStep knows.takes known (by omega)]
  constructor
  -- the first suffix is applied first, so that what the others make comes behind it
  · intro loops
    induction loops with
    | done accepts =>
      rcases (accepts_suffixStep ended knows short).mp accepts with
        ⟨noSuffix, rfl, outcome⟩ | ⟨_, _, outcome⟩
      · cases outcome
        exact ⟨id, .none noSuffix, rfl⟩
      · cases outcome
    | more accepts _ ih =>
      have fewer := accepts.length_le
      rcases (accepts_suffixStep ended knows short).mp accepts with
        ⟨_, _, outcome⟩ | ⟨make, derivation, outcome⟩
      · cases outcome
      · cases outcome
        obtain ⟨others, suffixes, rfl⟩ := ih (by omega)
        exact ⟨others ∘ make, .more derivation suffixes, rfl⟩
  · rintro ⟨make, derivation, rfl⟩
    induction derivation generalizing operand with
    | none noSuffix =>
      exact .done ((accepts_suffixStep ended knows short).mpr (.inl ⟨noSuffix, rfl, rfl⟩))
    | @more input middle rest make others suffix _ ih =>
      have accepts : (suffixStep inner operand).Accepts finish input middle (.more (make operand)) :=
        (accepts_suffixStep ended knows short).mpr (.inr ⟨make, suffix, rfl⟩)
      have fewer := accepts.length_le
      exact .more accepts (ih (by omega))

omit knows in
theorem accepts_characterDirective {directive : PlacedToken} {found : Expr} :
    characterDirective.Accepts finish (directive :: input) rest found ↔
      ∃ literal content character, input = literal :: rest ∧ literal.token.lexeme = .text content ∧
        content.toList = [character] ∧
        found = .typed (directive.token.span.through literal.token.span) (.builtin .u32)
          (.character character) := by
  rw [characterDirective, accepts_token, accepts_advance, List.tail_cons, accepts_token]
  constructor
  · intro accepts
    split at accepts
    next content same =>
      obtain ⟨literal, tail, rfl, same⟩ := exists_cons ended same (by simp)
      rw [accepts_advance] at accepts
      split at accepts
      next character single =>
        obtain ⟨rfl, rfl⟩ := accepts_pure.mp accepts
        exact ⟨literal, content, character, rfl, same, single, rfl⟩
      next => exact absurd accepts not_accepts_fail
    next => exact absurd accepts not_accepts_failExpecting
  · rintro ⟨literal, content, character, rfl, same, single, rfl⟩
    simp [same, single]

omit ended knows in
/-- The step of a sequence of nodes that parses one: nothing is accepted after a recovery. -/
theorem accepts_recovering {β : Type} {node : Parser Node}
    (recognizes : node.Recognizes finish nodes input) {elements : List Node}
    {outcome : Step (List Node) β} :
    (do
        let found ← recovering node
        return Step.more (elements ++ found.toList)).Accepts finish input rest outcome ↔
      ∃ parsed, nodes input rest parsed ∧ outcome = .more (elements ++ [parsed]) := by
  rw [accepts_bind]
  constructor
  · rintro ⟨found, behind, recovered, accepts⟩
    obtain ⟨rfl, rfl⟩ := accepts_pure.mp accepts
    rw [recovering, accepts_countAhead] at recovered
    obtain ⟨result, middle, attempted, accepts⟩ := accepts_bind.mp recovered
    obtain ⟨parsed, rfl, parses⟩ := accepts_attempt.mp attempted
    obtain ⟨rfl, rfl⟩ := accepts_pure.mp accepts
    exact ⟨parsed, (recognizes _ _).mp parses, rfl⟩
  · rintro ⟨parsed, derivation, rfl⟩
    have parses := (recognizes _ _).mpr derivation
    have attempted := accepts_attempt.mpr ⟨parsed, rfl, parses⟩
    have recovered : (recovering node).Accepts finish input rest (some parsed) := by
      rw [recovering, accepts_countAhead]
      exact accepts_bind.mpr ⟨some parsed, rest, attempted, accepts_pure.mpr ⟨rfl, rfl⟩⟩
    exact ⟨some parsed, rest, recovered, accepts_pure.mpr ⟨rfl, rfl⟩⟩

omit knows in
theorem accepts_blockStep {node : Parser Node} {opening : Token}
    (recognizes : node.Recognizes finish nodes input) (starts : BeginsWith nodes IsNodeStart)
    {elements : List Node} {outcome : Step (List Node) (List Node × Token)} :
    (blockStep node opening elements).Accepts finish input rest outcome ↔
      (∃ result, Closes elements input rest result ∧ outcome = .done result) ∨
      ∃ found, ElementPhrase nodes input rest found ∧ outcome = .more (elements ++ found) := by
  rw [blockStep, accepts_token]
  constructor
  · intro accepts
    split at accepts
    next same =>
      obtain ⟨closing, tail, rfl, same⟩ := exists_cons ended same (by simp)
      obtain ⟨rfl, rfl⟩ := accepts_pure.mp accepts
      exact .inl ⟨_, ⟨closing, rfl, same, rfl⟩, rfl⟩
    next same =>
      obtain ⟨semicolon, tail, rfl, same⟩ := exists_cons ended same (by simp)
      obtain ⟨rfl, rfl⟩ := accepts_pure.mp accepts
      exact .inr ⟨[], .semicolon same, by simp⟩
    next => exact absurd accepts not_accepts_failUnclosed
    next =>
      obtain ⟨parsed, derivation, rfl⟩ := (accepts_recovering recognizes).mp accepts
      exact .inr ⟨[parsed], .node derivation, rfl⟩
  · rintro (⟨_, ⟨closing, rfl, same, rfl⟩, rfl⟩ | ⟨found, derivation, rfl⟩)
    · simp [same]
    · cases derivation with
      | semicolon same => simp [same]
      | @node _ _ parsed derivation =>
        -- what begins a node is none of the tokens that the step looks for first
        obtain ⟨first, tail, rfl, notClosing, notSemicolon, notEnd⟩ := starts _ _ _ derivation
        rw [List.headD_cons]
        split
        next same => exact absurd same notClosing
        next same => exact absurd same notSemicolon
        next same => exact absurd same notEnd
        next => exact (accepts_recovering recognizes).mpr ⟨parsed, derivation, rfl⟩

theorem recognizes_block (short : input.length < bound + 1) :
    (block inner.node).Recognizes finish (BlockPhrase nodes) input := by
  -- behind the bracket, the nodes are recognized by what lies within
  have collects (opening : Token) {inside rest : List PlacedToken} {result : List Node × Token}
      (fewer : inside.length < bound) :
      (loop (blockStep inner.node opening) []).Accepts finish inside rest result ↔
        ∃ found middle, RepeatPhrase (ElementPhrase nodes) inside middle found ∧
          Closes found middle rest result :=
    (accepts_loop ended fun before known within =>
      steps_blockStep known (knows.takes.node before known (by omega))).trans
      (loop_collects (fun input _ _ _ fewer =>
        accepts_blockStep ended (knows.node input fewer) knows.nodeStarts) fewer [])
  intro rest found
  simp only [block, accepts_bind, accepts_pure, Prod.exists]
  constructor
  · rintro ⟨_, inside, opened, parsed, closing, middle, loops, rfl, rfl⟩
    obtain ⟨opening, rfl, same, rfl⟩ := (accepts_consume ended (by simp)).mp opened
    obtain ⟨_, _, repeats, closing, rfl, isClosing, pair⟩ :=
      (collects _ (by simpa using short)).mp loops
    cases pair
    exact .intro (Token.name_eq_punctuation.mp same) repeats isClosing
  · intro derivation
    cases derivation with
    | @intro opening closing inside _ parsed same repeats isClosing =>
      have opened : (consume (.punctuation .openingCurlyBracket)).Accepts finish (opening :: inside)
          inside opening.token := consume_accepts (Token.name_eq_punctuation.mpr same)
      have loops := (collects opening.token (by simpa using short)).mpr
        ⟨parsed, closing :: rest, repeats, closing, rfl, isClosing, rfl⟩
      exact ⟨opening.token, inside, opened, parsed, closing.token, rest, loops, rfl, rfl⟩

theorem accepts_bracketed {opening : PlacedToken} (short : input.length < bound) {found : Expr} :
    (bracketed inner).Accepts finish (opening :: input) rest found ↔
      ∃ parsed closing, expressions input (closing :: rest) parsed ∧
        closing.token.lexeme = .punctuation .closingRoundBracket ∧
        found = parsed.withSpan (opening.token.span.through closing.token.span) := by
  rw [bracketed, accepts_token, accepts_advance, List.tail_cons, accepts_bind]
  constructor
  · rintro ⟨parsed, middle, parses, accepts⟩
    rw [accepts_token] at accepts
    split at accepts
    next => exact absurd accepts not_accepts_failUnclosed
    next =>
      obtain ⟨closed, behind, closes, accepts⟩ := accepts_bind.mp accepts
      obtain ⟨rfl, rfl⟩ := accepts_pure.mp accepts
      obtain ⟨closing, rfl, same, rfl⟩ := (accepts_consume ended (by simp)).mp closes
      have derivation := (knows.expression input short _ _).mp parses
      exact ⟨parsed, closing, derivation, Token.name_eq_punctuation.mp same, rfl⟩
  · rintro ⟨parsed, closing, derivation, same, rfl⟩
    refine ⟨parsed, closing :: rest, (knows.expression input short _ _).mpr derivation, ?_⟩
    have closes : (consume (.punctuation .closingRoundBracket)).Accepts finish (closing :: rest) rest
        closing.token := consume_accepts (Token.name_eq_punctuation.mpr same)
    rw [accepts_token, List.headD_cons, if_neg (by simp [same])]
    exact accepts_bind.mpr ⟨closing.token, rest, closes, accepts_pure.mpr ⟨rfl, rfl⟩⟩

theorem accepts_branches {first : PlacedToken} (short : input.length < bound)
    {form : Expr → Expr → Option Expr → Form} {found : Expr} :
    (branches inner form).Accepts finish (first :: input) rest found ↔
      ∃ condition inside consequent behind alternative, expressions input inside condition ∧
        expressions inside behind consequent ∧
        LedPhrase (.keyword .else_) expressions behind rest alternative ∧
        found = .ofForm ((first.token.span.through consequent.span).throughOption
          (alternative.map Expr.span)) (form condition consequent alternative) := by
  rw [branches, accepts_token, accepts_advance, List.tail_cons, List.headD_cons]
  simp only [accepts_bind, accepts_pure]
  constructor
  · rintro ⟨condition, inside, holds, consequent, behind, runs, alternative, _, otherwise, rfl, rfl⟩
    have fewer := holds.length_le
    have least := runs.length_le
    refine ⟨condition, inside, consequent, behind, alternative, ?_, ?_, ?_, rfl⟩
    · exact (knows.expression input short _ _).mp holds
    · exact (knows.expression inside (by omega) _ _).mp runs
    · exact (recognizes_led ended (by simp) (knows.expression.mono (by omega)) _ _).mp otherwise
  · rintro ⟨condition, inside, consequent, behind, alternative, first, second, third, rfl⟩
    have holds := (knows.expression input short _ _).mpr first
    have fewer := holds.length_le
    have runs := (knows.expression inside (by omega) _ _).mpr second
    have least := runs.length_le
    have otherwise := (recognizes_led ended (by simp) (knows.expression.mono (by omega)) _ _).mpr third
    exact ⟨condition, inside, holds, consequent, behind, runs, alternative, rest, otherwise, rfl, rfl⟩

omit ended knows in
theorem accepts_literal {first : PlacedToken} {type : Ty} {form : Form} {found : Expr} :
    (literal type form).Accepts finish (first :: input) rest found ↔
      found = .typed first.token.span type form ∧ rest = input := by
  simp [literal]

theorem primaryPhrase_of_accepts {first : PlacedToken} {tail : List PlacedToken}
    (short : tail.length < bound) {found : Expr}
    (accepts : (primary inner).Accepts finish (first :: tail) rest found) :
    PrimaryPhrase naming expressions nodes (first :: tail) rest found := by
  have literals {type : Ty} {form : Form}
      (accepts : (literal type form).Accepts finish (first :: tail) rest found)
      (isLiteral : IsLiteral first.token.lexeme type form) :
      PrimaryPhrase naming expressions nodes (first :: tail) rest found := by
    obtain ⟨rfl, rfl⟩ := accepts_literal.mp accepts
    exact .literal isLiteral
  have branching {form : Expr → Expr → Option Expr → Form} {word : Keyword}
      (accepts : (branches inner form).Accepts finish (first :: tail) rest found)
      (same : first.token.lexeme = .keyword word) (isBranching : IsBranching word form) :
      PrimaryPhrase naming expressions nodes (first :: tail) rest found := by
    obtain ⟨_, _, _, _, _, holds, runs, otherwise, rfl⟩ :=
      (accepts_branches ended knows short).mp accepts
    exact .branches same isBranching holds runs otherwise
  -- the first token decides which of the phrases it is
  rw [primary, accepts_token, List.headD_cons] at accepts
  split at accepts
  next same => exact literals accepts (same ▸ .true_)
  next same => exact literals accepts (same ▸ .false_)
  next same => exact literals accepts (same ▸ .integer)
  next same => exact literals accepts (same ▸ .real)
  next same => exact literals accepts (same ▸ .text)
  next same => exact literals accepts (same ▸ .character)
  next same =>
    split at accepts
    next isChar =>
      obtain ⟨literal, content, character, rfl, isText, single, rfl⟩ :=
        (accepts_characterDirective ended).mp accepts
      exact .character (isChar ▸ same) isText single
    next => exact absurd accepts not_accepts_failExpecting
  next same =>
    obtain ⟨rfl, rfl⟩ := accepts_pure.mp accepts
    exact .reference same
  next same =>
    obtain ⟨parsed, closing, derivation, isClosing, rfl⟩ :=
      (accepts_bracketed ended knows short).mp accepts
    exact .bracketed same derivation isClosing
  next =>
    have within : (first :: tail).length < bound + 1 := Nat.succ_lt_succ short
    exact .block ((recognizes_block ended knows within _ _).mp accepts)
  next same => exact branching accepts same .if_
  next same => exact branching accepts same .unless_
  next same => exact branching accepts same .while_
  next same => exact branching accepts same .until_
  next same =>
    obtain ⟨annotated, middle, parsed, accepts⟩ := accepts_bind.mp (accepts_advance.mp accepts)
    obtain ⟨rfl, rfl⟩ := accepts_pure.mp accepts
    exact .new same ((recognizes_type ended _ _).mp parsed)
  next same =>
    obtain ⟨operand, middle, parsed, accepts⟩ := accepts_bind.mp (accepts_advance.mp accepts)
    obtain ⟨rfl, rfl⟩ := accepts_pure.mp accepts
    exact .delete same ((knows.expression tail short _ _).mp parsed)
  next same =>
    obtain ⟨deferred, middle, parsed, accepts⟩ := accepts_bind.mp (accepts_advance.mp accepts)
    obtain ⟨rfl, rfl⟩ := accepts_pure.mp accepts
    exact .defer same ((knows.node tail short _ _).mp parsed)
  all_goals exact absurd accepts not_accepts_failExpecting

theorem accepts_of_primaryPhrase (short : input.length < bound + 1) {found : Expr}
    (derivation : PrimaryPhrase naming expressions nodes input rest found) :
    (primary inner).Accepts finish input rest found := by
  rw [primary, accepts_token]
  -- each phrase tells its first token, and so the branch that the parser takes
  cases derivation with
  | @literal first _ type form isLiteral =>
    rw [List.headD_cons]
    generalize kind : first.token.lexeme = lexeme at isLiteral
    cases isLiteral <;> exact accepts_literal.mpr ⟨rfl, rfl⟩
  | @character directive literal _ content character same isText single =>
    simp only [List.headD_cons, same]
    exact (accepts_characterDirective ended).mpr
      ⟨literal, content, character, rfl, isText, single, rfl⟩
  | reference same => simp [same]
  | @bracketed opening closing inside _ parsed same derivation isClosing =>
    simp only [List.headD_cons, same]
    exact (accepts_bracketed ended knows (by simpa using short)).mpr
      ⟨parsed, closing, derivation, isClosing, rfl⟩
  | block derivation =>
    have accepts := (recognizes_block ended knows short _ _).mpr derivation
    cases derivation with
    | intro same =>
      simp only [List.headD_cons, same]
      exact accepts
  | @branches first tail inside behind _ word form condition consequent alternative same isBranching
      holds runs otherwise =>
    have accepts : (branches inner form).Accepts finish (first :: tail) rest _ :=
      (accepts_branches ended knows (by simpa using short)).mpr
        ⟨condition, inside, consequent, behind, alternative, holds, runs, otherwise, rfl⟩
    cases isBranching <;> simpa only [List.headD_cons, same] using accepts
  | @new first tail _ annotated same derivation =>
    have parsed := (recognizes_type ended _ _).mpr derivation
    simp only [List.headD_cons, same, accepts_advance, List.tail_cons]
    exact accepts_bind.mpr ⟨annotated, rest, parsed, accepts_pure.mpr ⟨rfl, rfl⟩⟩
  | @delete first tail _ operand same derivation =>
    have parsed := (knows.expression tail (by simpa using short) _ _).mpr derivation
    simp only [List.headD_cons, same, accepts_advance, List.tail_cons]
    exact accepts_bind.mpr ⟨operand, rest, parsed, accepts_pure.mpr ⟨rfl, rfl⟩⟩
  | @defer first tail _ deferred same derivation =>
    have parsed := (knows.node tail (by simpa using short) _ _).mpr derivation
    simp only [List.headD_cons, same, accepts_advance, List.tail_cons]
    exact accepts_bind.mpr ⟨deferred, rest, parsed, accepts_pure.mpr ⟨rfl, rfl⟩⟩

omit knows in
/-- At the end of the input there is no expression. -/
theorem not_accepts_primary_nil {found : Expr} : ¬ (primary inner).Accepts finish [] rest found := by
  rw [primary, accepts_token, List.headD_nil, ended]
  exact not_accepts_failExpecting

theorem recognizes_primary :
    (primary inner).RecognizesBelow finish (PrimaryPhrase naming expressions nodes) (bound + 1) := by
  intro input short rest found
  refine ⟨fun accepts => ?_, accepts_of_primaryPhrase ended knows short⟩
  cases input with
  | nil => exact absurd accepts (not_accepts_primary_nil ended)
  | cons first tail => exact primaryPhrase_of_accepts ended knows (by simpa using short) accepts

theorem recognizes_operandOf : (operandOf inner).RecognizesBelow finish
    (OperandPhrase naming expressions nodes) (bound + 1) := by
  intro input short rest found
  -- an operand without an operator in front is a primary expression with its suffixes
  have plain : (primary inner >>= suffixes inner).Accepts finish input rest found ↔
      ∃ operand middle make, PrimaryPhrase naming expressions nodes input middle operand ∧
        SuffixesPhrase naming expressions middle rest make ∧ found = make operand := by
    rw [accepts_bind]
    constructor
    · rintro ⟨operand, middle, parsed, followed⟩
      have fewer := parsed.length_le
      obtain ⟨make, suffixes, rfl⟩ := (accepts_suffixes ended knows (by omega)).mp followed
      exact ⟨operand, middle, make, (recognizes_primary ended knows _ short _ _).mp parsed, suffixes, rfl⟩
    · rintro ⟨operand, middle, make, derivation, suffixes, rfl⟩
      have parsed := (recognizes_primary ended knows _ short _ _).mpr derivation
      have fewer := parsed.length_le
      exact ⟨operand, middle, parsed, (accepts_suffixes ended knows (by omega)).mpr ⟨make, suffixes, rfl⟩⟩
  rw [operandOf, accepts_token]
  constructor
  · intro accepts
    have plainly (accepts : (primary inner >>= suffixes inner).Accepts finish input rest found) :
        OperandPhrase naming expressions nodes input rest found := by
      obtain ⟨operand, middle, make, derivation, suffixes, rfl⟩ := plain.mp accepts
      exact .plain derivation suffixes
    split at accepts
    next sign same =>
      split at accepts
      next isUnary =>
        obtain ⟨first, tail, rfl, same⟩ := exists_cons ended same (by simp)
        obtain ⟨operand, middle, parsed, accepts⟩ := accepts_bind.mp (accepts_advance.mp accepts)
        obtain ⟨rfl, rfl⟩ := accepts_pure.mp accepts
        exact .unary same isUnary ((knows.operand tail (by simpa using short) _ _).mp parsed)
      next => exact plainly accepts
    next => exact plainly accepts
  · intro derivation
    cases derivation with
    | @unary first tail _ sign operand same isUnary derivation =>
      have parsed := (knows.operand tail (by simpa using short) _ _).mpr derivation
      simp only [List.headD_cons, same, isUnary, if_true, accepts_advance, List.tail_cons]
      exact accepts_bind.mpr ⟨operand, rest, parsed, accepts_pure.mpr ⟨rfl, rfl⟩⟩
    | @plain _ middle _ operand make derivation suffixes =>
      -- no primary expression begins with an operator
      obtain ⟨first, tail, rfl, _, noOperator⟩ := beginsWith_primaryPhrase naming _ _ _ derivation
      have accepts := plain.mpr ⟨operand, middle, make, derivation, suffixes, rfl⟩
      rw [List.headD_cons]
      split
      next sign same => exact absurd same (noOperator sign)
      next => exact accepts

theorem recognizes_expressionOf : (expressionOf inner).RecognizesBelow finish
    (GroupedPhrase (OperandPhrase naming expressions nodes) 0) (bound + 1) :=
  recognizes_climb ended (takes_operandOf knows.takes) (recognizes_operandOf ended knows)

end Parser

end Cadence
