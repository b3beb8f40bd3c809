import Cadence.Proofs.Parse.Declarations
import Cadence.Proofs.Token.Honesty

/-!
# The language of the parser

The parser for nodes is recognized below any number of tokens, by induction on that number: what lies
within a node has fewer tokens. Hence a file is parsed without a report exactly if its tokens are
derived from the grammar, and the derivation is the tree.
-/
namespace Cadence

open Source (File)

section Starts

variable {expression : Phrase Expr} {node : Phrase Node}

theorem IsExpressionStart.isNodeStart {lexeme : Lexeme} (start : IsExpressionStart lexeme) :
    IsNodeStart lexeme := by
  refine ⟨?_, ?_, ?_⟩ <;> rintro rfl <;> simp [IsExpressionStart, Parser.beginsExpression] at start

theorem beginsWith_statementPhrase (starts : BeginsWith expression IsExpressionStart) :
    BeginsWith (StatementPhrase expression) IsExpressionStart := by
  intro input rest found derivation
  cases derivation with
  | expression derivation => exact starts _ _ _ derivation
  | assignment derivation => exact starts _ _ _ derivation

theorem beginsWith_itemPhrase (naming : Lexeme → Option String)
    (starts : BeginsWith expression IsExpressionStart) :
    BeginsWith (ItemPhrase naming expression node) IsNodeStart := by
  intro input rest found derivation
  cases derivation with
  | procedure same => exact ⟨_, _, rfl, by simp [same, IsNodeStart]⟩
  | external same => exact ⟨_, _, rfl, by simp [same, IsNodeStart]⟩
  | struct same => exact ⟨_, _, rfl, by simp [same, IsNodeStart]⟩
  | binding same => exact ⟨_, _, rfl, by simp [same, IsNodeStart]⟩
  | load same => exact ⟨_, _, rfl, by simp [same, IsNodeStart]⟩
  | statement derivation =>
    obtain ⟨first, tail, same, start⟩ := beginsWith_statementPhrase starts _ _ _ derivation
    exact ⟨first, tail, same, start.isNodeStart⟩

theorem beginsWith_expressionPhrase (naming : Lexeme → Option String) :
    BeginsWith (ExpressionPhrase naming) IsExpressionStart := by
  rintro input rest found ⟨derivation⟩
  exact beginsWith_groupedPhrase naming 0 _ _ _ derivation

theorem beginsWith_nodePhrase (naming : Lexeme → Option String) :
    BeginsWith (NodePhrase naming) IsNodeStart := by
  rintro input rest found ⟨derivation⟩
  exact beginsWith_itemPhrase naming (beginsWith_expressionPhrase naming) _ _ _ derivation

end Starts

namespace Parser

variable {finish : PlacedToken} {input rest : List PlacedToken}
variable (ended : finish.token.lexeme = .endOfInput)

section Within

variable {inner : Inner} {expressions : Phrase Expr} {nodes : Phrase Node} {bound : Nat}
variable (knows : KnowsBelow inner finish expressions nodes bound)
variable (knot : ∀ input rest found, expressions input rest found ↔
  GroupedPhrase (OperandPhrase naming expressions nodes) 0 input rest found)
include ended knows

theorem itemPhrase_of_binding {keyword : PlacedToken} {word : Keyword} {kind : BindingKind}
    (short : input.length < bound) (same : keyword.token.lexeme = .keyword word)
    (isBinding : IsBinding word kind) {found : Node}
    (accepts : (binding inner kind).Accepts finish (keyword :: input) rest found) :
    ItemPhrase naming expressions nodes (keyword :: input) rest found := by
  obtain ⟨first, tail, middle, name, annotated, value, rfl, isName, typed, initialized, rfl⟩ :=
    (accepts_binding ended knows short).mp accepts
  exact .binding same isBinding isName typed initialized

include knot

theorem itemPhrase_of_accepts (short : input.length < bound + 1) {found : Node}
    (accepts : (nodeOf inner).Accepts finish input rest found) :
    ItemPhrase naming expressions nodes input rest found := by
  -- the first token decides what kind of node it is; a statement is what is left
  rw [nodeOf, accepts_token] at accepts
  split at accepts
  next same =>
    obtain ⟨mark, tail, rfl, same⟩ := exists_cons ended same (by simp)
    rw [accepts_advance, List.tail_cons, accepts_token] at accepts
    split at accepts
    next =>
      rw [List.length_cons] at short
      obtain ⟨keyword, first, tail, middle, name, signature, rfl, isKeyword, isName, signed, rfl, rfl⟩ :=
        (accepts_procedureHead ended knows (by omega)).mp accepts
      exact .external same isKeyword isName signed
    next => exact absurd accepts not_accepts_failExpecting
  next =>
    obtain ⟨keyword, first, tail, middle, name, signature, rfl, isKeyword, isName, signed, ending⟩ :=
      (accepts_procedureHead ended knows short).mp accepts
    obtain ⟨body, derivation, rfl⟩ := ending
    exact .procedure isKeyword isName signed derivation
  next =>
    obtain ⟨keyword, first, opening, inside, closing, name, fields, rfl, isKeyword, isName, isOpening,
      repeats, isClosing, rfl⟩ := (accepts_struct ended).mp accepts
    exact .struct isKeyword isName isOpening repeats isClosing
  next same =>
    obtain ⟨keyword, tail, rfl, same⟩ := exists_cons ended same (by simp)
    exact itemPhrase_of_binding ended knows (by simpa using short) same .let_ accepts
  next same =>
    obtain ⟨keyword, tail, rfl, same⟩ := exists_cons ended same (by simp)
    exact itemPhrase_of_binding ended knows (by simpa using short) same .var accepts
  next => exact absurd accepts not_accepts_failExpecting
  next =>
    split at accepts
    next same =>
      obtain ⟨directive, tail, rfl, same⟩ := exists_cons ended same (by simp)
      obtain ⟨first, path, rfl, isPath, rfl⟩ := (accepts_load ended).mp accepts
      exact .load same isPath
    next =>
      split at accepts
      next => exact .statement ((recognizes_statement ended knows knot input short _ _).mp accepts)
      next => exact absurd accepts not_accepts_fail

theorem accepts_of_itemPhrase (short : input.length < bound + 1) {found : Node}
    (derivation : ItemPhrase naming expressions nodes input rest found) :
    (nodeOf inner).Accepts finish input rest found := by
  rw [nodeOf, accepts_token]
  cases derivation with
  | @procedure keyword first tail middle _ name signature body same isName signed derivation =>
    simp only [List.headD_cons, same]
    exact (accepts_procedureHead ended knows short).mpr
      ⟨keyword, first, tail, middle, name, signature, rfl, same, isName, signed, body, derivation, rfl⟩
  | @external mark keyword first tail _ name signature same isKeyword isName signed =>
    have isProc : keyword.token.name = .keyword .proc := Token.name_eq_keyword.mpr isKeyword
    have less : (keyword :: first :: tail).length < bound + 1 := by
      rw [List.length_cons] at short
      omega
    simp only [List.headD_cons, same, accepts_advance, List.tail_cons, accepts_token, isProc, if_true]
    exact (accepts_procedureHead ended knows less).mpr
      ⟨keyword, first, tail, rest, name, signature, rfl, isKeyword, isName, signed, rfl, rfl⟩
  | @struct keyword first opening closing inside _ name fields same isName isOpening repeats
      isClosing =>
    simp only [List.headD_cons, same]
    exact (accepts_struct ended).mpr ⟨keyword, first, opening, inside, closing, name, fields, rfl, same,
      isName, isOpening, repeats, isClosing, rfl⟩
  | @binding keyword first tail middle _ word kind name annotated value same isBinding isName typed
      initialized =>
    have accepts : (binding inner kind).Accepts finish (keyword :: first :: tail) rest _ :=
      (accepts_binding ended knows (by simpa using short)).mpr
        ⟨first, tail, middle, name, annotated, value, rfl, isName, typed, initialized, rfl⟩
    cases isBinding <;> simpa only [List.headD_cons, same] using accepts
  | @load directive first _ path same isPath =>
    simp only [List.headD_cons, same, if_true]
    exact (accepts_load ended).mpr ⟨first, path, rfl, isPath, rfl⟩
  | statement derivation =>
    obtain ⟨first, tail, rfl, start⟩ :=
      beginsWith_statementPhrase knows.expressionStarts _ _ _ derivation
    have accepts := (recognizes_statement ended knows knot _ short _ _).mpr derivation
    rw [List.headD_cons]
    -- no other node begins with what begins an expression
    rw [IsExpressionStart] at start
    split
    next same => simp [same, beginsExpression] at start
    next same => simp [same, beginsExpression] at start
    next same => simp [same, beginsExpression] at start
    next same => simp [same, beginsExpression] at start
    next same => simp [same, beginsExpression] at start
    next same => simp [same, beginsExpression] at start
    next =>
      split
      next same => simp [same, beginsExpression] at start
      next => exact accepts

theorem recognizes_nodeOf :
    (nodeOf inner).RecognizesBelow finish (ItemPhrase naming expressions nodes) (bound + 1) :=
  fun _ short _ _ => ⟨itemPhrase_of_accepts ended knows knot short,
    accepts_of_itemPhrase ended knows knot short⟩

end Within

include ended

theorem knowsBelow_innerWithin (depth : Nat) : KnowsBelow (innerWithin depth) finish
    (ExpressionPhrase naming) (NodePhrase naming) depth := by
  have knot (input rest : List PlacedToken) (found : Expr) : ExpressionPhrase naming input rest found ↔
      GroupedPhrase (OperandPhrase naming (ExpressionPhrase naming) (NodePhrase naming)) 0 input rest
        found := ⟨fun ⟨derivation⟩ => derivation, .intro⟩
  -- one level of nesting takes one token at least
  induction depth with
  | zero =>
    have never {α : Type} {parser : Parser α} {phrase : Phrase α} :
        parser.RecognizesBelow finish phrase 0 := fun _ short => absurd short (Nat.not_lt_zero _)
    exact ⟨takeBelow_innerWithin 0, beginsWith_expressionPhrase _, beginsWith_nodePhrase _, never,
      never, never⟩
  | succ depth ih =>
    refine ⟨takeBelow_innerWithin _, beginsWith_expressionPhrase _, beginsWith_nodePhrase _, ?_,
      recognizes_operandOf ended ih, ?_⟩
    · intro input short rest found
      exact (recognizes_expressionOf ended ih input short rest found).trans (knot _ _ _).symm
    · intro input short rest found
      exact (recognizes_nodeOf ended ih knot input short rest found).trans
        ⟨.intro, fun ⟨derivation⟩ => derivation⟩

theorem recognizes_node : node.Recognizes finish (NodePhrase naming) input := by
  intro rest found
  rw [node, accepts_countAhead]
  exact (knowsBelow_innerWithin ended (input.length + 2)).node input (by omega) rest found

omit ended in
theorem Accepts.suffix {α : Type} {parser : Parser α} {found : α}
    (accepts : parser.Accepts finish input rest found) : rest <:+ input := by
  have reaches := parser.reaches (.fresh finish input)
  rw [accepts] at reaches
  exact reaches.ahead_suffix

/-- The current token is the end of the input. -/
def Finishes (finish : PlacedToken) (elements : List Node) : Phrase (List Node) :=
  fun input rest result =>
    (input.headD finish).token.lexeme = .endOfInput ∧ rest = input ∧ result = elements

theorem accepts_nodesStep {elements : List Node} {outcome : Step (List Node) (List Node)} :
    (nodesStep elements).Accepts finish input rest outcome ↔
      (∃ result, Finishes finish elements input rest result ∧ outcome = .done result) ∨
      ∃ found, ElementPhrase (NodePhrase naming) input rest found ∧
        outcome = .more (elements ++ found) := by
  have recognizes : node.Recognizes finish (NodePhrase naming) input := recognizes_node ended
  rw [nodesStep, accepts_token]
  constructor
  · intro accepts
    split at accepts
    next same =>
      obtain ⟨rfl, rfl⟩ := accepts_pure.mp accepts
      exact .inl ⟨_, ⟨same, rfl, rfl⟩, rfl⟩
    next same =>
      obtain ⟨semicolon, tail, rfl, same⟩ := exists_cons ended same (by simp)
      obtain ⟨rfl, rfl⟩ := accepts_pure.mp accepts
      exact .inr ⟨[], .semicolon same, by simp⟩
    next =>
      obtain ⟨parsed, derivation, rfl⟩ := (accepts_recovering recognizes).mp accepts
      exact .inr ⟨[parsed], .node derivation, rfl⟩
  · rintro (⟨_, ⟨same, rfl, rfl⟩, rfl⟩ | ⟨found, derivation, rfl⟩)
    · rw [same]
      exact accepts_pure.mpr ⟨rfl, rfl⟩
    · cases derivation with
      | semicolon same => simp [same]
      | @node _ _ parsed derivation =>
        -- what begins a node is neither a semicolon nor the end
        obtain ⟨first, tail, rfl, _, notSemicolon, notEnd⟩ :=
          beginsWith_nodePhrase naming _ _ _ derivation
        rw [List.headD_cons]
        split
        next same => exact absurd same notEnd
        next same => exact absurd same notSemicolon
        next => exact (accepts_recovering recognizes).mpr ⟨parsed, derivation, rfl⟩

/-- Where no token of the input is the end of the input, the whole input is parsed. -/
theorem accepts_nodes (plain : ∀ placed ∈ input, placed.token.lexeme ≠ .endOfInput)
    {found : List Node} :
    nodes.Accepts finish input rest found ↔ rest = [] ∧ IsTopLevel naming input found := by
  have collects : nodes.Accepts finish input rest found ↔
      ∃ parsed middle, RepeatPhrase (ElementPhrase (NodePhrase naming)) input middle parsed ∧
        Finishes finish parsed middle rest found :=
    (accepts_loop ended fun before known _ => steps_nodesStep known).trans
      (loop_collects (fun _ _ _ _ _ => accepts_nodesStep ended) (Nat.lt_succ_self _) [])
  constructor
  · intro accepts
    obtain ⟨_, middle, repeats, last, rfl, rfl⟩ := collects.mp accepts
    have suffix := accepts.suffix
    cases rest with
    | nil => exact ⟨rfl, repeats⟩
    -- a token that is left would have to be the end of the input
    | cons first tail => exact absurd last (plain first (suffix.subset (List.mem_cons_self)))
  · rintro ⟨rfl, derivation⟩
    exact collects.mpr ⟨found, [], derivation, ended, rfl, rfl⟩

end Parser

/-- What was read of a file ends with the end of the input. -/
@[simp]
theorem endTokens_ofFile (file : File) :
    endTokens file (Lexed.ofFile file).tokens = (Lexed.ofFile file).tokens := by
  obtain ⟨front, last, same, isEnd, -⟩ := Lexed.exists_tokens file
  simp [endTokens, same, isEnd]

/-- The tokens of a file in front of the end of the input. -/
def Parsed.inputOf (file : File) : List PlacedToken :=
  (placeTokens file (Lexed.ofFile file).tokens).dropLast

/-- Parsing starts in front of the tokens that were read, behind which the input ends. -/
theorem Parsed.exists_start (file : File) :
    ∃ finish, start file (Lexed.ofFile file).tokens = .fresh finish (inputOf file) ∧
      finish.token.lexeme = .endOfInput ∧
      ∀ placed ∈ inputOf file, placed.token.lexeme ≠ .endOfInput := by
  obtain ⟨front, last, same, isEnd, plain⟩ := Lexed.exists_tokens file
  have started : start file (Lexed.ofFile file).tokens =
      .fresh (start file (Lexed.ofFile file).tokens).finish (inputOf file) := by
    rw [start, endTokens_ofFile]
    rfl
  refine ⟨_, started, isEnded_start file _, fun placed member => ?_⟩
  have known := List.mem_map_of_mem (f := PlacedToken.token) member
  rw [inputOf, List.map_dropLast, map_token_placeTokens, same, List.dropLast_concat] at known
  exact plain placed.token known

/-- A file is parsed without a report as some nodes exactly if its tokens are derived as them. -/
theorem Parsed.parses_iff (file : File) (nodes : List Node) :
    (ofFile file).errors = [] ∧ (ofFile file).nodes = nodes ↔
      IsTopLevel naming (inputOf file) nodes := by
  obtain ⟨finish, started, ended, plain⟩ := exists_start file
  have clean := exhausted_eq_false file (Lexed.ofFile file).tokens
  have accepts {rest : List PlacedToken} : Parser.nodes.Accepts finish (inputOf file) rest nodes ↔
      rest = [] ∧ IsTopLevel naming (inputOf file) nodes := Parser.accepts_nodes ended plain
  cases run : Parser.nodes.run (.fresh finish (inputOf file)) with
  | mk result state =>
    simp only [ofFile, ofTokens, started, run] at clean ⊢
    constructor
    · rintro ⟨noErrors, rfl⟩
      obtain ⟨found, rfl, accepted⟩ := Parser.exists_accepts run noErrors clean
      exact (accepts.mp accepted).2
    · intro derivation
      obtain ⟨rfl, rfl⟩ := Prod.mk.inj (run.symm.trans (accepts.mpr ⟨rfl, derivation⟩))
      exact ⟨rfl, rfl⟩

/-- The parser accepts exactly its grammar: a file is parsed without a report if and only if its
tokens are derived from the grammar, and any derivation of them stands for the nodes in the result. -/
theorem parser_accepts_grammar (file : File) :
    ((Parsed.ofFile file).errors = [] ↔
      ∃ nodes, IsTopLevel Lexeme.parameterName? (Parsed.inputOf file) nodes) ∧
    ∀ nodes, IsTopLevel Lexeme.parameterName? (Parsed.inputOf file) nodes →
      (Parsed.ofFile file).nodes = nodes := by
  refine ⟨⟨fun noErrors => ?_, ?_⟩, fun nodes derivation => ?_⟩
  · exact ⟨_, (Parsed.parses_iff file _).mp ⟨noErrors, rfl⟩⟩
  · rintro ⟨nodes, derivation⟩
    exact ((Parsed.parses_iff file nodes).mpr derivation).1
  · exact ((Parsed.parses_iff file nodes).mpr derivation).2

section Wildcards

/-- The name that an identifier spells. The wildcard is not an identifier. -/
def Lexeme.identifier? : Lexeme → Option String
  | .identifier name => some name
  | _ => none

/-- If the wildcard is not a name, there are no parameters that begin with it. -/
theorem not_signaturePhrase_wildcard {naming : Lexeme → Option String}
    (unnamed : naming (.punctuation .wildcard) = none) {opening wildcard : PlacedToken}
    {input rest : List PlacedToken} {found : Signature}
    (same : wildcard.token.lexeme = .punctuation .wildcard) :
    ¬ SignaturePhrase naming (TypePhrase naming) (opening :: wildcard :: input) rest found := by
  -- no type begins with the wildcard, so it would have to be a name
  have noElement {middle : List PlacedToken} {parameter : Parameter} :
      ¬ ParameterPhrase naming (TypePhrase naming) (wildcard :: input) middle parameter := by
    intro derivation
    cases derivation with
    | varargs isVarargs => simp [same] at isVarargs
    | member named typed =>
      cases named with
      | present isName => simp [same, unnamed] at isName
      | absent =>
        obtain ⟨first, tail, isFirst, start⟩ := Parser.beginsWith_typePhrase naming _ _ _ typed
        cases isFirst
        simp [Parser.IsTypeStart, same] at start
  rintro ⟨_, listed, _, _⟩
  cases listed with
  | close isClosing => simp [Token.name_eq_punctuation.mp isClosing] at same
  | last element => exact noElement element
  | more element => exact noElement element

/-- A procedure that ignores its only parameter. -/
def wildcardFile : File := ⟨.anonymous, "extern proc f(_: s32)".toList, 1⟩

/-- A parameter can be named by the wildcard, which is more than that it can have an identifier. -/
theorem wildcard_names_parameter :
    (Parsed.ofFile wildcardFile).errors = [] ∧
      ¬ ∃ nodes, IsTopLevel Lexeme.identifier? (Parsed.inputOf wildcardFile) nodes := by
  refine ⟨by decide +kernel, ?_⟩
  have tokens : Parsed.inputOf wildcardFile = [
      ⟨⟨.keyword .external, ⟨1, 7⟩, "extern"⟩, true⟩, ⟨⟨.keyword .proc, ⟨8, 12⟩, "proc"⟩, true⟩,
      ⟨⟨.identifier "f", ⟨13, 14⟩, "f"⟩, true⟩,
      ⟨⟨.punctuation .openingRoundBracket, ⟨14, 15⟩, "("⟩, true⟩,
      ⟨⟨.punctuation .wildcard, ⟨15, 16⟩, "_"⟩, true⟩,
      ⟨⟨.punctuation .colon, ⟨16, 17⟩, ":"⟩, true⟩, ⟨⟨.builtinType .s32, ⟨18, 21⟩, "s32"⟩, true⟩,
      ⟨⟨.punctuation .closingRoundBracket, ⟨21, 22⟩, ")"⟩, true⟩] := by
    decide +kernel
  rw [tokens]
  -- the keywords in front are those of a procedure only, whose parameters begin with the wildcard
  rintro ⟨nodes, derivation⟩
  cases derivation with
  | more element =>
    cases element with
    | semicolon same => cases same
    | node derivation =>
      cases derivation with
      | intro derivation =>
        cases derivation with
        | procedure same => cases same
        | external _ _ _ signed => exact not_signaturePhrase_wildcard rfl rfl signed
        | struct same => cases same
        | binding same isBinding =>
          cases same
          cases isBinding
        | load same => cases same
        | statement derivation =>
          obtain ⟨first, tail, isFirst, start⟩ :=
            beginsWith_statementPhrase (beginsWith_expressionPhrase _) _ _ _ derivation
          cases isFirst
          simp [IsExpressionStart, Parser.beginsExpression] at start

end Wildcards

end Cadence
