import Cadence.Parse.File
import Cadence.Proofs.Parse.Lasting

/-!
# Parsing takes tokens and is never given up

Whatever nests or repeats takes a token first, so that the number of tokens bounds the depth of
nesting and the length of every loop: the bounds the parsers are given always suffice. There is one
lemma for each parser, in the order of their definitions. It holds below a number of tokens, given
the same for what the parser nests below a smaller one.
-/
namespace Cadence

open Source (File Span)

namespace Parser

variable {before : ParseState}

section Types

theorem steps_pathStep (ended : before.IsEnded) : Steps pathStep before := by
  intro span
  refine Lasts.bind (lasts_consumeIf ended (by simp)) fun isDot after reaches less => ?_
  refine .ite (fun found => ?_) fun _ => .pure (by simp)
  have afterEnded := ended.of_reaches reaches
  refine (takes_consumeIdentifier afterEnded).bind afterEnded fun _ last _ further => ?_
  exact .pure fun _ _ => Nat.lt_trans further (less found)

theorem takes_qualifiedType (ended : before.IsEnded) : qualifiedType.Takes before := by
  refine (takes_consumeIdentifier ended).bind ended fun path after afterEnded less => .token ?_
  refine .ite (fun _ => ?_) fun _ => .pure less
  exact (ends_loop afterEnded fun _ lastEnded _ => steps_pathStep lastEnded).bind afterEnded
    fun _ _ _ _ => .fail _

theorem ends_parameterName? (ended : before.IsEnded) : parameterName?.Ends before := by
  apply Lasts.token
  split
  · exact .pure trivial
  · refine .look (.ite (fun _ => ?_) fun _ => .pure trivial)
    exact ends_advance.bind ended fun _ _ afterEnded _ =>
      ends_advance.bind afterEnded fun _ _ _ _ => .pure trivial

theorem ends_membersOf (parameters : List Parameter) : (membersOf parameters).Ends before := by
  match parameters with
  | [] => exact .pure trivial
  | [.varargs _] => exact .pure trivial
  | .varargs _ :: _ :: _ => exact .fail _
  | .member _ :: rest => exact Lasts.bind (ends_membersOf rest) fun _ _ _ _ => .pure trivial

variable {type : Parser Annotation} {bound : Nat} (types : type.TakesBelow bound)
include types

theorem takes_parameter : (parameter type).TakesBelow bound := by
  intro before ended short
  refine .token (.ite (fun same => ?_) fun _ => ?_)
  · exact (takes_named ended same (by simp)).bind ended fun _ _ _ less => .pure less
  · refine (ends_parameterName? ended).bind ended fun name after afterEnded fewer => ?_
    refine (types after afterEnded (by omega)).bind afterEnded fun _ _ _ less => .pure ?_
    omega

theorem takes_signatureOf : (signatureOf type).TakesBelow (bound + 1) := by
  intro before ended short
  refine (takes_consume ended (by simp)).bind ended fun opening inside insideEnded less => ?_
  refine (ends_commaSeparated insideEnded (by simp) ?_).bind insideEnded
    fun listed behind behindEnded _ => ?_
  · exact fun state stateEnded fewer => takes_parameter types state stateEnded (by omega)
  · refine (ends_membersOf _).bind behindEnded fun members after afterEnded _ => ?_
    have ends := ends_led afterEnded (.punctuation .thinArrowRight) (by simp)
      fun last lastEnded fewer => (types last lastEnded (by omega)).ends
    exact ends.bind afterEnded fun _ _ _ _ => .pure (by omega)

theorem takes_typeOf : (typeOf type).TakesBelow (bound + 1) := by
  intro before ended short
  apply Lasts.token
  split
  next same =>
    refine (takes_advance ended same (by simp)).bind ended fun _ after afterEnded less => ?_
    refine (types after afterEnded (by omega)).bind afterEnded fun _ _ _ further => .pure ?_
    omega
  next same =>
    exact (takes_advance ended same (by simp)).bind ended fun _ _ _ less => .pure less
  next => exact takes_qualifiedType ended
  next =>
    exact (takes_signatureOf types before ended short).bind ended fun _ _ _ less => .pure less
  next => exact .failExpecting _ _

omit types in
theorem takes_typeWithin (depth : Nat) : (typeWithin depth).TakesBelow depth := by
  induction depth with
  | zero => exact fun _ _ short => absurd short (Nat.not_lt_zero _)
  | succ depth ih => exact takes_typeOf ih

omit types in
theorem takes_type (ended : before.IsEnded) : Parser.type.Takes before :=
  .look (takes_typeWithin _ before ended (Nat.lt_succ_self _))

omit types in
theorem takes_signature (ended : before.IsEnded) : signature.Takes before :=
  takes_signatureOf (fun _ known _ => takes_type known) before ended (Nat.lt_succ_self _)

end Types

/-- An operator is found only where there is a token to take. -/
theorem lasts_binaryOperator? : binaryOperator?.Lasts before fun found after =>
    after = before ∧ ∀ sign, found = some sign → before.current.token.lexeme ≠ .endOfInput := by
  refine .look (.pure ⟨rfl, fun sign found last => ?_⟩)
  simp [PlacedToken.binary?, last] at found

theorem steps_climbStep {climbed : Nat → Parser Expr} (ended : before.IsEnded)
    (ends : ∀ (precedence : Nat) (after : ParseState), after.IsEnded →
      after.ahead.length < before.ahead.length → (climbed precedence).Ends after)
    (least : Nat) : Steps (climbStep climbed least) before := by
  intro left
  refine Lasts.bind lasts_binaryOperator? fun found here _ present => ?_
  obtain ⟨rfl, present⟩ := present
  split
  next sign precedence =>
    refine .ite (fun _ => .pure (by simp)) fun _ => ?_
    refine (takes_advance ended rfl (present _ rfl)).bind ended fun _ mid midEnded less => ?_
    exact (ends _ mid midEnded less).bind midEnded fun _ _ _ _ => .pure fun _ _ => by omega
  next => exact .pure (by simp)

theorem takes_climbWithin {operand : Parser Expr} {bound : Nat} (operands : operand.TakesBelow bound)
    (depth least : Nat) : (climbWithin operand depth least).TakesBelow bound := by
  induction depth generalizing least with
  | zero => exact operands
  | succ depth ih =>
    intro before ended short
    refine (operands before ended short).bind ended fun first after afterEnded less => ?_
    refine Ends.below (ends_loop afterEnded fun state stateEnded fewer => ?_) less
    exact steps_climbStep stateEnded (fun _ mid midEnded _ => (ih _ mid midEnded (by omega)).ends) _

/-- The parsers for what lies within an expression take tokens. -/
structure TakeBelow (inner : Inner) (bound : Nat) : Prop where
  expression : inner.expression.TakesBelow bound
  operand : inner.operand.TakesBelow bound
  node : inner.node.TakesBelow bound

theorem takes_recovering {node : Parser Node} (ended : before.IsEnded) (takes : node.Takes before)
    {lexeme : Lexeme} (same : before.current.token.lexeme = lexeme)
    (present : lexeme ≠ .endOfInput) : (recovering node).Takes before := by
  have attempted : (attempt node).Lasts before fun result after =>
      ∀ found, result = some found → after.ahead.length < before.ahead.length :=
    ⟨takes.1, fun result run found isFound => takes.2 found ((Option.some.inj run).trans isFound)⟩
  refine .look (Lasts.bind attempted fun result after reaches less => ?_)
  split
  next found => exact .pure (less found rfl)
  next =>
    refine .look (.ite (fun stuck => ?_) fun moved => ?_)
    · have still : after.ahead = before.ahead := reaches.ahead_suffix.eq_of_length stuck
      have here : after.current.token.lexeme = lexeme := by
        rw [← same, ParseState.current, ParseState.current, still, reaches.finish_eq]
      have afterEnded := ended.of_reaches reaches
      refine (takes_advance afterEnded here present).bind afterEnded fun _ _ _ fewer => .pure ?_
      exact still ▸ fewer
    · exact .pure (Nat.lt_of_le_of_ne reaches.length_le moved)

theorem takes_characterDirective (ended : before.IsEnded) {lexeme : Lexeme}
    (same : before.current.token.lexeme = lexeme) (present : lexeme ≠ .endOfInput) :
    characterDirective.Takes before := by
  refine .token ((takes_advance ended same present).bind ended fun _ after afterEnded less => .token ?_)
  split
  · refine ends_advance.bind afterEnded fun _ last _ fewer => ?_
    split
    · exact .pure (by omega)
    · exact .fail _
  · exact .failExpecting _ _

theorem steps_blockStep {node : Parser Node} {opening : Token} (ended : before.IsEnded)
    (takes : node.Takes before) : Steps (blockStep node opening) before := by
  refine fun nodes => .token ?_
  split
  next same =>
    exact ends_advance.bind ended fun _ _ _ _ => .pure (by simp)
  next same =>
    exact (takes_advance ended same (by simp)).bind ended fun _ _ _ less => .pure fun _ _ => less
  next => exact .failUnclosed _
  next _ _ present =>
    exact (takes_recovering ended takes rfl present).bind ended fun _ _ _ less =>
      .pure fun _ _ => less

theorem takes_block {node : Parser Node} (ended : before.IsEnded)
    (takes : node.TakesBelow before.ahead.length) : (block node).Takes before := by
  refine (takes_consume ended (by simp)).bind ended fun opening inside insideEnded less => ?_
  refine (ends_loop insideEnded fun state stateEnded fewer => ?_).bind insideEnded
    fun _ _ _ _ => .pure (by omega)
  exact steps_blockStep stateEnded (takes state stateEnded (by omega))

theorem takes_literal (ended : before.IsEnded) {lexeme : Lexeme}
    (same : before.current.token.lexeme = lexeme) (present : lexeme ≠ .endOfInput) (type : Ty)
    (form : Form) : (literal type form).Takes before :=
  .token ((takes_advance ended same present).bind ended fun _ _ _ less => .pure less)

section Within

variable {inner : Inner} {bound : Nat} (known : TakeBelow inner bound)
include known

theorem steps_suffixStep (ended : before.IsEnded) (short : before.ahead.length < bound + 1) :
    Steps (suffixStep inner) before := by
  refine fun operand => .token ?_
  split
  next same =>
    refine (takes_advance ended same (by simp)).bind ended fun _ after afterEnded less => ?_
    exact (takes_type afterEnded).bind afterEnded fun _ _ _ _ => .pure fun _ _ => by omega
  next same =>
    refine (takes_advance ended same (by simp)).bind ended fun _ after afterEnded less => ?_
    refine (ends_commaSeparated afterEnded (by simp) ?_).bind afterEnded fun _ _ _ _ => ?_
    · exact known.expression.mono (by omega)
    · exact .pure fun _ _ => by omega
  next same =>
    refine (takes_advance ended same (by simp)).bind ended fun _ after afterEnded less => ?_
    exact (takes_consumeIdentifier afterEnded).bind afterEnded fun _ _ _ _ => .pure fun _ _ => by omega
  next => exact .pure (by simp)

theorem ends_suffixes (ended : before.IsEnded) (short : before.ahead.length < bound + 1)
    (operand : Expr) : (suffixes inner operand).Ends before :=
  ends_loop ended fun _ stateEnded _ => steps_suffixStep known stateEnded (by omega)

theorem takes_bracketed (ended : before.IsEnded) (short : before.ahead.length < bound + 1)
    {lexeme : Lexeme} (same : before.current.token.lexeme = lexeme)
    (present : lexeme ≠ .endOfInput) : (bracketed inner).Takes before := by
  refine .token ((takes_advance ended same present).bind ended fun _ after afterEnded less => ?_)
  refine (known.expression after afterEnded (by omega)).bind afterEnded fun _ last lastEnded _ => ?_
  refine .token (.ite (fun _ => .failUnclosed _) fun _ => ?_)
  exact (takes_consume lastEnded (by simp)).bind lastEnded fun _ _ _ _ => .pure (by omega)

theorem takes_branches (ended : before.IsEnded) (short : before.ahead.length < bound + 1)
    {lexeme : Lexeme} (same : before.current.token.lexeme = lexeme)
    (present : lexeme ≠ .endOfInput) (form : Expr → Expr → Option Expr → Form) :
    (branches inner form).Takes before := by
  refine .token ((takes_advance ended same present).bind ended fun _ after afterEnded less => ?_)
  refine (known.expression after afterEnded (by omega)).bind afterEnded fun _ mid midEnded _ => ?_
  refine (known.expression mid midEnded (by omega)).bind midEnded fun _ last lastEnded _ => ?_
  have ends := ends_led lastEnded (.keyword .else_) (by simp) fun state stateEnded fewer =>
    (known.expression state stateEnded (by omega)).ends
  exact ends.bind lastEnded fun _ _ _ _ => .pure (by omega)

theorem takes_primary : (primary inner).TakesBelow (bound + 1) := by
  intro before ended short
  -- in every branch a token is taken, or the parser fails
  apply Lasts.token
  split
  next same => exact takes_literal ended same (by simp) _ _
  next same => exact takes_literal ended same (by simp) _ _
  next same => exact takes_literal ended same (by simp) _ _
  next same => exact takes_literal ended same (by simp) _ _
  next same => exact takes_literal ended same (by simp) _ _
  next same => exact takes_literal ended same (by simp) _ _
  next same =>
    exact .ite (fun _ => takes_characterDirective ended same (by simp)) fun _ => .failExpecting _ _
  next same =>
    exact (takes_advance ended same (by simp)).bind ended fun _ _ _ less => .pure less
  next same => exact takes_bracketed known ended short same (by simp)
  next same => exact takes_block ended (known.node.mono (by omega))
  next same => exact takes_branches known ended short same (by simp) _
  next same => exact takes_branches known ended short same (by simp) _
  next same => exact takes_branches known ended short same (by simp) _
  next same => exact takes_branches known ended short same (by simp) _
  next same =>
    refine (takes_advance ended same (by simp)).bind ended fun _ after afterEnded less => ?_
    exact (takes_type afterEnded).bind afterEnded fun _ _ _ _ => .pure (by omega)
  next same =>
    refine (takes_advance ended same (by simp)).bind ended fun _ after afterEnded less => ?_
    refine (known.expression after afterEnded (by omega)).bind afterEnded fun _ _ _ _ => .pure ?_
    omega
  next same =>
    refine (takes_advance ended same (by simp)).bind ended fun _ after afterEnded less => ?_
    exact (known.node after afterEnded (by omega)).bind afterEnded fun _ _ _ _ => .pure (by omega)
  all_goals exact .failExpecting _ _

theorem takes_operandOf : (operandOf inner).TakesBelow (bound + 1) := by
  intro before ended short
  have plain : (primary inner >>= suffixes inner).Takes before := by
    refine (takes_primary known before ended short).bind ended fun operand after afterEnded less => ?_
    exact (ends_suffixes known afterEnded (by omega) operand).below less
  apply Lasts.token
  split
  next sign same =>
    refine .ite (fun _ => ?_) fun _ => plain
    refine (takes_advance ended same (by simp)).bind ended fun _ after afterEnded less => ?_
    exact (known.operand after afterEnded (by omega)).bind afterEnded fun _ _ _ _ => .pure (by omega)
  next => exact plain

theorem takes_expressionOf : (expressionOf inner).TakesBelow (bound + 1) :=
  takes_climbWithin (takes_operandOf known) _ _

omit known in
theorem ends_procedureName (ended : before.IsEnded) (keyword : Token) :
    (procedureName keyword).Ends before := by
  have taken (name : Option Identifier) : (advance >>= fun _ => pure name).Ends before :=
    ends_advance.bind ended fun _ _ _ _ => .pure trivial
  apply Lasts.token
  split
  · exact taken _
  · exact taken _
  · exact .report fun _ _ _ => .pure trivial
  · refine .look (.ite (fun _ => ?_) fun _ => .fail _)
    refine .report fun after same _ => ?_
    have afterEnded : after.IsEnded := by rwa [ParseState.IsEnded, same]
    exact ends_advance.bind afterEnded fun _ _ _ _ => .pure trivial

theorem ends_procedureBody (ended : before.IsEnded) (short : before.ahead.length < bound)
    (keyword : Token) : (procedureBody inner keyword).Ends before := by
  apply Lasts.token
  split
  · refine ends_advance.bind ended fun _ after afterEnded fewer => ?_
    exact (known.expression after afterEnded (by omega)).ends
  · exact (takes_block ended (known.node.mono (by omega))).ends
  · exact .fail _

theorem takes_procedure (ended : before.IsEnded) (short : before.ahead.length < bound + 1)
    (external : Option Token) : (procedure inner external).Takes before := by
  refine (takes_consume ended (by simp)).bind ended fun keyword mid midEnded less => ?_
  refine (ends_procedureName midEnded keyword).bind midEnded fun binder named namedEnded _ => ?_
  refine .token (.ite (fun _ => .fail _) fun _ => ?_)
  refine (takes_signature namedEnded).bind namedEnded fun head last lastEnded _ => ?_
  refine .ite (fun _ => .pure (by omega)) fun _ => ?_
  exact (ends_procedureBody known lastEnded (by omega) keyword).bind lastEnded fun _ _ _ _ =>
    .pure (by omega)

omit known in
theorem ends_structName (ended : before.IsEnded) (keyword : Token) :
    (structName keyword).Ends before := by
  apply Lasts.token
  split
  · exact ends_advance.bind ended fun _ _ _ _ => .pure trivial
  · exact .report fun _ _ _ => .pure trivial
  · exact .failExpecting _ _

omit known in
theorem ends_separator (ended : before.IsEnded) : separator.Ends before := by
  refine (lasts_consumeIf ended (by simp)).ends.bind ended fun _ after afterEnded _ => ?_
  refine .ite (fun _ => .pure trivial) fun _ => ?_
  exact (lasts_consumeIf afterEnded (by simp)).ends.bind afterEnded fun _ _ _ _ => .pure trivial

omit known in
theorem takes_structField (ended : before.IsEnded) : structField.Takes before := by
  refine (takes_consumeIdentifier ended).bind ended fun binder named namedEnded less => ?_
  refine (takes_consume namedEnded (by simp)).bind namedEnded fun _ mid midEnded _ => ?_
  refine (takes_type midEnded).bind midEnded fun annotated typed typedEnded _ => ?_
  exact (ends_separator typedEnded).bind typedEnded fun _ _ _ _ => .pure (by omega)

omit known in
theorem steps_fieldStep (ended : before.IsEnded) (opening : Token) :
    Steps (fieldStep opening) before := by
  refine fun fields => .token ?_
  split
  · exact ends_advance.bind ended fun _ _ _ _ => .pure (by simp)
  · exact .failUnclosed _
  · exact (takes_structField ended).bind ended fun _ _ _ less => .pure fun _ _ => less

omit known in
theorem takes_struct (ended : before.IsEnded) : struct.Takes before := by
  refine (takes_consume ended (by simp)).bind ended fun keyword mid midEnded less => ?_
  refine (ends_structName midEnded keyword).bind midEnded fun binder named namedEnded _ => ?_
  refine (takes_consume namedEnded (by simp)).bind namedEnded fun opening inside insideEnded _ => ?_
  refine (ends_loop insideEnded fun state stateEnded _ => ?_).bind insideEnded
    fun _ _ _ _ => .pure (by omega)
  exact steps_fieldStep stateEnded opening

theorem ends_initialValue (ended : before.IsEnded) (short : before.ahead.length < bound) :
    (initialValue inner).Ends before :=
  .token (.ite (fun _ => ends_advance.bind ended fun _ _ _ _ => .pure trivial) fun _ =>
    (known.expression before ended short).ends)

theorem takes_binding (ended : before.IsEnded) (short : before.ahead.length < bound + 1)
    {lexeme : Lexeme} (same : before.current.token.lexeme = lexeme)
    (present : lexeme ≠ .endOfInput) (kind : BindingKind) : (binding inner kind).Takes before := by
  refine .token ((takes_advance ended same present).bind ended fun _ mid midEnded less => ?_)
  refine (takes_consumeIdentifier midEnded).bind midEnded fun binder named namedEnded _ => ?_
  have annotated := ends_led namedEnded (.punctuation .colon) (by simp) fun _ known _ =>
    (takes_type known).ends
  refine annotated.bind namedEnded fun type typed typedEnded _ => ?_
  have initialized := ends_led typedEnded (.punctuation .assign) (by simp)
    fun state stateEnded _ => ends_initialValue known stateEnded (by omega)
  exact initialized.bind typedEnded fun _ _ _ _ => .pure (by omega)

omit known in
theorem takes_load (ended : before.IsEnded) {lexeme : Lexeme}
    (same : before.current.token.lexeme = lexeme) (present : lexeme ≠ .endOfInput) :
    load.Takes before := by
  refine .token ((takes_advance ended same present).bind ended fun _ mid midEnded less => .token ?_)
  split
  · exact ends_advance.bind midEnded fun _ _ _ _ => .pure (by omega)
  · exact .failExpecting _ _

theorem ends_assignment (ended : before.IsEnded) (short : before.ahead.length < bound)
    (target : Expr) (operator : Option Operator) : (assignment inner target operator).Ends before := by
  refine .token (ends_advance.bind ended fun _ mid midEnded fewer => ?_)
  refine (known.expression mid midEnded (by omega)).bind midEnded fun _ _ _ _ => ?_
  exact .ite (fun _ => .pure trivial) fun _ => .fail _

theorem takes_statement : (statement inner).TakesBelow (bound + 1) := by
  intro before ended short
  refine (takes_expressionOf known before ended short).bind ended fun target mid midEnded less => ?_
  have assigned (operator : Option Operator) :=
    (ends_assignment known midEnded (by omega) target operator).below less
  apply Lasts.token
  split
  · exact assigned _
  · split
    · exact assigned _
    · exact .pure less
  · exact .pure less

theorem takes_nodeOf : (nodeOf inner).TakesBelow (bound + 1) := by
  intro before ended short
  apply Lasts.token
  split
  next same =>
    refine (takes_advance ended same (by simp)).bind ended fun _ mid midEnded less => .token ?_
    refine .ite (fun _ => ?_) fun _ => .failExpecting _ _
    refine Lasts.mono (takes_procedure known midEnded (by omega) _) fun _ _ _ _ => by omega
  next => exact takes_procedure known ended short none
  next => exact takes_struct ended
  next same => exact takes_binding known ended short same (by simp) _
  next same => exact takes_binding known ended short same (by simp) _
  next => exact .failExpecting _ _
  next present =>
    refine .ite (fun _ => takes_load ended rfl present) fun _ => .ite (fun _ => ?_) fun _ => .fail _
    exact takes_statement known before ended short

end Within

theorem takeBelow_innerWithin (depth : Nat) : TakeBelow (innerWithin depth) depth := by
  induction depth with
  | zero =>
    have never {α : Type} (parser : Parser α) : parser.TakesBelow 0 :=
      fun _ _ short => absurd short (Nat.not_lt_zero _)
    exact ⟨never _, never _, never _⟩
  | succ depth ih => exact ⟨takes_expressionOf ih, takes_operandOf ih, takes_nodeOf ih⟩

theorem takes_node (ended : before.IsEnded) : node.Takes before :=
  .look (takes_nodeOf (takeBelow_innerWithin _) before ended (by omega))

theorem steps_nodesStep (ended : before.IsEnded) : Steps nodesStep before := by
  refine fun nodes => .token ?_
  split
  next => exact .pure (by simp)
  next same =>
    exact (takes_advance ended same (by simp)).bind ended fun _ _ _ less => .pure fun _ _ => less
  next present _ =>
    exact (takes_recovering ended (takes_node ended) rfl present).bind ended fun _ _ _ less =>
      .pure fun _ _ => less

theorem ends_nodes (ended : before.IsEnded) : nodes.Ends before :=
  ends_loop ended fun _ stateEnded _ => steps_nodesStep stateEnded

end Parser

@[simp]
theorem map_token_placeAfter (file : File) (before : Token) (tokens : List Token) :
    (placeAfter file before tokens).map PlacedToken.token = tokens := by
  induction tokens generalizing before with
  | nil => rfl
  | cons token rest ih => simp [placeAfter, ih]

/-- The parser sees the tokens of a file in their order. -/
@[simp]
theorem map_token_placeTokens (file : File) (tokens : List Token) :
    (placeTokens file tokens).map PlacedToken.token = tokens := by
  cases tokens <;> simp [placeTokens]

theorem exists_endTokens (file : File) (tokens : List Token) :
    ∃ (front : List Token) (ending : Token), endTokens file tokens = front ++ [ending] ∧
      ending.lexeme = .endOfInput := by
  rw [endTokens]
  split
  next token last =>
    split
    next isEnd =>
      obtain ⟨front, rfl⟩ := List.getLast?_eq_some_iff.mp last
      exact ⟨front, token, rfl, isEnd⟩
    next => exact ⟨tokens, File.ending file, rfl, rfl⟩
  next => exact ⟨[], File.ending file, rfl, rfl⟩

/-- The last of the tokens that are parsed is the end of the input. -/
theorem Parsed.isEnded_start (file : File) (tokens : List Token) : (start file tokens).IsEnded := by
  obtain ⟨front, ending, same, isEnd⟩ := exists_endTokens file tokens
  have placed := map_token_placeTokens file (endTokens file tokens)
  rw [same] at placed
  obtain ⟨placedFront, placedEnding, all, _, one⟩ := List.map_eq_append_iff.mp placed
  obtain ⟨last, rfl, rfl⟩ := List.map_eq_singleton_iff.mp one
  simpa [ParseState.IsEnded, ParseState.fresh, start, same, all] using isEnd

/-- The parsing of a file is never given up, whatever its tokens are. -/
theorem Parsed.exhausted_eq_false (file : File) (tokens : List Token) :
    (ofTokens file tokens).exhausted = false :=
  (Parser.ends_nodes (isEnded_start file tokens)).1

end Cadence
