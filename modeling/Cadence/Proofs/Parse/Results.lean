import Cadence.Proofs.Parse.Yields

/-!
# Every parser yields trees with the traits of their parts

One lemma for each parser, in the order of their definitions. What nests is given by an induction on
how deeply it may nest. In particular, every parser yields well-formed trees.
-/
namespace Cadence

open Source (File Span)

/-- Some elements and the optional one behind them. -/
theorem forall_append_toList {α : Type} {property : α → Prop} {elements : List α} {found : Option α}
    (known : ∀ element ∈ elements, property element) (further : ∀ element ∈ found, property element) :
    ∀ element ∈ elements ++ found.toList, property element := by
  rw [List.forall_mem_append]
  exact ⟨known, fun element member => further element (Option.mem_toList.mp member)⟩

namespace Parser

/-- What holds of an element of a list of parameters if something holds of parameters. -/
def OfParameter (property : Member → Prop) : Parameter → Prop
  | .member member => property member
  | .varargs _ => True

theorem yields_membersOf {property : Member → Prop} {standing : Standing} {parameters : List Parameter}
    (known : ∀ parameter ∈ parameters, OfParameter property parameter) :
    (membersOf parameters).Yields (fun result => ∀ member ∈ result.1, property member) standing := by
  match parameters with
  | [] => exact .pure nofun
  | [.varargs _] => exact .pure nofun
  | .varargs _ :: _ :: _ => exact .fail _
  | .member member :: rest =>
    rw [List.forall_mem_cons] at known
    exact (yields_membersOf known.2).bind fun result others =>
      .pure (List.forall_mem_cons.mpr ⟨known.1, others⟩)

theorem yields_binaryOperator? {standing : Standing} :
    binaryOperator?.Yields (fun found => ∀ sign ∈ found, sign.1.value.precedence? = some sign.2)
      standing :=
  .behind fun _ => .pure fun _ found => PlacedToken.precedence_of_binary found

theorem yields_recovering {property : Node → Prop} {standing : Standing} {node : Parser Node}
    (nodes : node.Yields property standing) :
    (recovering node).Yields (fun result => ∀ found ∈ result, property found) standing := by
  refine .behind fun before => nodes.attempt.bind fun result known => ?_
  split
  · exact .pure known
  · -- a node that could not be parsed is left out, whether or not a token is skipped
    refine .behind fun after => .ite (fun _ => ?_) fun _ => .pure nofun
    exact .behind fun _ => .pure nofun

section Tokens

variable {traits : Traits}

theorem yields_token : token.Yields traits.token traits.standing := by
  intro before stands current same
  obtain rfl := Option.some.inj same
  -- once all tokens are taken, the current one is the end of the input
  obtain ⟨atEnd, ahead⟩ := List.forall_mem_cons.mp stands
  cases tokens : before.ahead with
  | nil => simpa [ParseState.current, tokens] using atEnd
  | cons first rest => simpa [ParseState.current, tokens] using ahead first (by simp [tokens])

theorem yields_consumeIdentifier : consumeIdentifier.Yields traits.IsName traits.standing := by
  refine yields_token.bind fun current known => ?_
  split
  next name same => exact .behind fun _ => .pure ⟨current, known, same⟩
  · exact .failExpecting _ _

theorem yields_parameterName? : parameterName?.Yields
    (fun name => ∀ binder ∈ name, traits.IsParameterName binder) traits.standing := by
  refine yields_token.bind fun current known => ?_
  split
  next => exact .pure nofun
  next name found =>
    refine .behind fun _ => .ite (fun _ => ?_) fun _ => .pure nofun
    refine .behind fun _ => .behind fun _ => .pure fun binder same => ?_
    obtain rfl := Option.some.inj same
    exact ⟨current, known, found⟩

end Tokens

variable {traits : Traits} (inherited : traits.AreInherited)
include inherited

/-- The type that a parser yields has the trait. -/
def YieldsType (traits : Traits) (type : Parser Annotation) : Prop :=
  type.Yields (fun annotated => traits.type annotated.value) traits.standing

theorem yields_qualifiedType : YieldsType traits qualifiedType := by
  refine .behind fun path => .behind fun _ =>
    .ite (fun _ => ?_) fun _ => .pure (inherited.named path)
  exact .behind fun _ => .fail _

section Types

variable {type : Parser Annotation} (types : YieldsType traits type)
include types

theorem yields_parameter :
    (parameter type).Yields (OfParameter traits.parameter) traits.standing := by
  refine .behind fun current => .ite (fun _ => ?_) fun _ => ?_
  · exact .behind fun _ => .pure trivial
  · exact yields_parameterName?.bind fun name known => types.bind fun annotated written =>
      .pure (inherited.parameter known written)

theorem yields_signatureOf : (signatureOf type).Yields
    (fun signature => traits.Signature signature.parameters signature.result) traits.standing := by
  refine .behind fun opening =>
    (Yields.commaSeparated _ _ (yields_parameter inherited types)).bind fun listed known => ?_
  exact (yields_membersOf known).bind fun members formed => (Yields.led _ types).bind fun _ written =>
    .pure ⟨formed, written⟩

theorem yields_typeOf : YieldsType traits (typeOf type) := by
  refine .behind fun current => ?_
  split
  · exact .behind fun _ => types.bind fun target written => .pure (inherited.pointer written)
  · exact .behind fun _ => .pure (inherited.builtin _)
  · exact yields_qualifiedType inherited
  · exact (yields_signatureOf inherited types).bind fun signature known =>
      .pure (inherited.signature known)
  · exact .failExpecting _ _

end Types

theorem yields_type : YieldsType traits type := by
  refine .behind fun count => ?_
  generalize count + 1 = depth
  induction depth with
  | zero => exact .exhaust
  | succ depth ih => exact yields_typeOf inherited ih

theorem yields_signature : signature.Yields
    (fun signature => traits.Signature signature.parameters signature.result) traits.standing :=
  yields_signatureOf inherited (yields_type inherited)

theorem yields_climbWithin {operand : Parser Expr}
    (operands : operand.Yields traits.expression traits.standing) (depth least : Nat) :
    (climbWithin operand depth least).Yields traits.expression traits.standing := by
  induction depth generalizing least with
  | zero => exact operands
  | succ depth ih =>
    -- the invariant of the loop is what is known of the operands on the left
    refine operands.bind fun first formed => .loop traits.expression _ formed fun left leftFormed => ?_
    refine yields_binaryOperator?.bind fun found known => ?_
    split
    next sign precedence =>
      refine .ite (fun _ => .pure leftFormed) fun _ => .behind fun _ => ?_
      refine (ih _).bind fun right rightFormed => .pure ?_
      exact inherited.ofForm rfl ⟨leftFormed, by simp [known _ rfl], rightFormed⟩
    next => exact .pure leftFormed

/-- The parsers for what lies within an expression yield trees with the traits. -/
structure IsInner (traits : Traits) (inner : Inner) : Prop where
  expression : inner.expression.Yields traits.expression traits.standing
  operand : inner.operand.Yields traits.expression traits.standing
  node : inner.node.Yields traits.node traits.standing

theorem yields_characterDirective :
    characterDirective.Yields traits.expression traits.standing := by
  refine .behind fun _ => .behind fun _ => .behind fun literal => ?_
  split
  · refine .behind fun _ => ?_
    split
    · exact .pure (inherited.typed rfl trivial)
    · exact .fail _
  · exact .failExpecting _ _

theorem yields_block {node : Parser Node} (nodes : node.Yields traits.node traits.standing) :
    (block node).Yields traits.expression traits.standing := by
  have inside (opening : Token) : (loop (blockStep node opening) []).Yields
      (fun result => ∀ node ∈ result.1, traits.node node) traits.standing := by
    refine .loop (fun nodes => ∀ node ∈ nodes, traits.node node) _ (by simp) fun sequence formed =>
      .behind fun current => ?_
    split
    · exact .behind fun _ => .pure formed
    · exact .behind fun _ => .pure formed
    · exact .failUnclosed _
    · exact (yields_recovering nodes).bind fun found known => .pure (forall_append_toList formed known)
  refine .behind fun opening => (inside opening).bind fun result formed => ?_
  exact .pure (inherited.ofForm rfl (show traits.FormParts (.block result.1) from formed))

theorem yields_literal {type : Ty} {form : Form} (stated : form.statedType? = some type)
    (parts : traits.FormParts form) : (literal type form).Yields traits.expression traits.standing :=
  .behind fun _ => .behind fun _ => .pure (inherited.typed stated parts)

section Within

variable {inner : Inner} (known : IsInner traits inner)
include known

theorem yields_suffixes {operand : Expr} (formed : traits.expression operand) :
    (suffixes inner operand).Yields traits.expression traits.standing := by
  refine .loop traits.expression _ formed fun operand formed => .behind fun current => ?_
  split
  · exact .behind fun _ => (yields_type inherited).bind fun annotated written =>
      .pure (inherited.typed rfl ⟨formed, written⟩)
  · exact .behind fun _ => (Yields.commaSeparated _ _ known.expression).bind fun arguments others =>
      .pure (inherited.ofForm rfl ⟨formed, others⟩)
  · exact .behind fun _ => yields_consumeIdentifier.bind fun field isName =>
      .pure (inherited.ofForm rfl ⟨formed, isName⟩)
  · exact .pure formed

theorem yields_bracketed : (bracketed inner).Yields traits.expression traits.standing := by
  refine .behind fun opening => .behind fun _ =>
    known.expression.bind fun parsed formed => .behind fun current =>
      .ite (fun _ => .failUnclosed _) fun _ => ?_
  exact .behind fun closing => .pure (inherited.bracketed _ formed)

theorem yields_branches {form : Expr → Expr → Option Expr → Form}
    (parts : ∀ condition first alternative, traits.expression condition → traits.expression first →
      (∀ second ∈ alternative, traits.expression second) →
      traits.FormParts (form condition first alternative))
    (silent : ∀ condition first alternative, (form condition first alternative).statedType? = none) :
    (branches inner form).Yields traits.expression traits.standing := by
  refine .behind fun keyword => .behind fun _ =>
    known.expression.bind fun condition first => known.expression.bind fun consequent second =>
      (Yields.led _ known.expression).bind fun alternative third => .pure ?_
  exact inherited.ofForm (silent _ _ _) (parts _ _ _ first second third)

theorem yields_primary : (primary inner).Yields traits.expression traits.standing := by
  refine yields_token.bind fun current isKnown => ?_
  split
  · exact yields_literal inherited rfl trivial
  · exact yields_literal inherited rfl trivial
  · exact yields_literal inherited rfl trivial
  · exact yields_literal inherited rfl trivial
  · exact yields_literal inherited rfl trivial
  · exact yields_literal inherited rfl trivial
  · exact .ite (fun _ => yields_characterDirective inherited) fun _ => .failExpecting _ _
  next name same =>
    exact .behind fun _ => .pure (inherited.ofForm rfl ⟨⟨current, isKnown, same⟩, rfl⟩)
  · exact yields_bracketed inherited known
  · exact yields_block inherited known.node
  · exact yields_branches inherited known (fun _ _ _ first second third => ⟨first, second, third⟩) fun _ _ _ => rfl
  · exact yields_branches inherited known (fun _ _ _ first second third => ⟨first, second, third⟩) fun _ _ _ => rfl
  · exact yields_branches inherited known (fun _ _ _ first second third => ⟨first, second, third⟩) fun _ _ _ => rfl
  · exact yields_branches inherited known (fun _ _ _ first second third => ⟨first, second, third⟩) fun _ _ _ => rfl
  · exact .behind fun _ => (yields_type inherited).bind fun annotated written =>
      .pure (inherited.typed rfl written)
  · exact .behind fun _ => known.expression.bind fun operand formed =>
      .pure (inherited.ofForm rfl formed)
  · exact .behind fun _ => known.node.bind fun node formed => .pure (inherited.ofForm rfl formed)
  all_goals exact .failExpecting _ _

theorem yields_operandOf : (operandOf inner).Yields traits.expression traits.standing := by
  have plain : (primary inner >>= suffixes inner).Yields traits.expression traits.standing :=
    (yields_primary inherited known).bind fun operand formed => yields_suffixes inherited known formed
  refine .behind fun current => ?_
  split
  next sign _ =>
    refine .ite (fun unary => ?_) fun _ => plain
    exact .behind fun _ => known.operand.bind fun operand formed =>
      .pure (inherited.ofForm rfl ⟨unary, formed⟩)
  next => exact plain

theorem yields_expressionOf : (expressionOf inner).Yields traits.expression traits.standing :=
  yields_climbWithin inherited (yields_operandOf inherited known) _ _

omit inherited known in
theorem yields_procedureName (keyword : Token) : (procedureName keyword).Yields
    (fun name => ∀ binder ∈ name, traits.IsProcedureName binder) traits.standing := by
  refine yields_token.bind fun current isKnown => ?_
  split
  next name same =>
    refine .behind fun _ => .pure fun binder isName => ?_
    obtain rfl := Option.some.inj isName
    exact .inl ⟨current, isKnown, same⟩
  next operator _ =>
    refine .behind fun _ => .pure fun binder isName => ?_
    obtain rfl := Option.some.inj isName
    exact .inr ⟨operator, rfl⟩
  · exact .behind fun _ => .pure nofun
  · refine .behind fun _ => .ite (fun _ => ?_) fun _ => .fail _
    exact .behind fun _ => .behind fun _ => .pure nofun

theorem yields_procedureBody (keyword : Token) :
    (procedureBody inner keyword).Yields traits.expression traits.standing := by
  refine .behind fun current => ?_
  split
  · exact .behind fun _ => known.expression
  · exact yields_block inherited known.node
  · exact .fail _

theorem yields_procedure (external : Option Token) :
    (procedure inner external).Yields traits.node traits.standing := by
  refine .behind fun keyword => (yields_procedureName keyword).bind fun binder isName =>
    .behind fun current => .ite (fun _ => .fail _) fun _ => ?_
  refine (yields_signature inherited).bind fun signature formed =>
    .ite (fun isExternal => ?_) fun isInternal => ?_
  · -- it has no body, and that is what the mark in front of it says
    exact .pure (inherited.node
      ⟨⟨rfl, isName, formed⟩, by simpa [Signature.head] using isExternal, nofun⟩)
  · refine (yields_procedureBody inherited known keyword).bind fun body bodyFormed => .pure ?_
    exact inherited.node ⟨⟨rfl, isName, formed⟩, by simpa [Signature.head] using isInternal,
      fun _ same => Option.some.inj same ▸ bodyFormed⟩

omit known in
theorem yields_structField : structField.Yields traits.field traits.standing := by
  refine yields_consumeIdentifier.bind fun binder isName => .behind fun _ =>
    (yields_type inherited).bind fun annotated written => ?_
  exact .behind fun _ => .pure (inherited.field isName written)

omit inherited known in
theorem yields_structName (keyword : Token) : (structName keyword).Yields
    (fun name => ∀ binder ∈ name, traits.IsName binder) traits.standing := by
  refine yields_token.bind fun current isKnown => ?_
  split
  next name same =>
    refine .behind fun _ => .pure fun binder isName => ?_
    obtain rfl := Option.some.inj isName
    exact ⟨current, isKnown, same⟩
  · exact .behind fun _ => .pure nofun
  · exact .failExpecting _ _

omit known in
theorem yields_struct : struct.Yields traits.node traits.standing := by
  refine .behind fun keyword => (yields_structName keyword).bind fun binder isName =>
    .behind fun opening => ?_
  refine (Yields.loop (fun fields => ∀ field ∈ fields, traits.field field)
    (fun result => ∀ field ∈ result.1, traits.field field) (by simp) fun fields formed => ?_).bind
      fun result formed => .pure (inherited.node ⟨rfl, isName, formed⟩)
  refine .behind fun current => ?_
  split
  · exact .behind fun _ => .pure formed
  · exact .failUnclosed _
  · exact (yields_structField inherited).bind fun field known => .pure
      (List.forall_mem_append.mpr ⟨formed, List.forall_mem_singleton.mpr known⟩)

omit inherited in
theorem yields_initialValue : (initialValue inner).Yields
    (fun value => value.IsUninitialized ∨ traits.expression value) traits.standing := by
  refine .behind fun current => .ite (fun _ => ?_) fun _ => ?_
  · exact .behind fun _ => .pure (.inl ⟨rfl, rfl, rfl, rfl⟩)
  · exact known.expression.mono fun value formed => .inr formed

theorem yields_binding (kind : BindingKind) :
    (binding inner kind).Yields traits.node traits.standing := by
  refine .behind fun keyword => .behind fun _ => yields_consumeIdentifier.bind fun binder isName =>
    (Yields.led _ (yields_type inherited)).bind fun annotated written =>
      (Yields.led _ (yields_initialValue known)).bind fun value formed => .pure ?_
  exact inherited.node ⟨⟨rfl, isName, written⟩, formed⟩

omit known in
theorem yields_load : load.Yields traits.node traits.standing := by
  refine .behind fun directive => .behind fun _ =>
    .behind fun current => ?_
  split
  · exact .behind fun _ => .pure (inherited.node trivial)
  · exact .failExpecting _ _

theorem yields_assignment {target : Expr} {operator : Option Operator}
    (formed : traits.expression target) (fits : ∀ sign ∈ operator, sign.precedence?.isSome) :
    (assignment inner target operator).Yields traits.node traits.standing := by
  refine .behind fun sign => .behind fun _ => known.expression.bind fun value valueFormed =>
    .ite (fun place => .pure ?_) fun _ => .fail _
  refine inherited.node ⟨formed, place, fun applied found => ?_, valueFormed⟩
  obtain ⟨operator, same, rfl⟩ := Option.map_eq_some_iff.mp found
  exact fits operator same

theorem yields_statement : (statement inner).Yields traits.node traits.standing := by
  refine (yields_expressionOf inherited known).bind fun target formed => .behind fun current => ?_
  have plain : (Pure.pure (.expression target) : Parser Node).Yields traits.node traits.standing :=
    .pure (inherited.node formed)
  split
  · exact yields_assignment inherited known formed nofun
  · split
    next applied same =>
      apply yields_assignment inherited known formed
      simpa using Operator.isSome_precedence_of_applied same
    next => exact plain
  · exact plain

theorem yields_nodeOf : (nodeOf inner).Yields traits.node traits.standing := by
  refine .behind fun current => ?_
  split
  · refine .behind fun _ => .behind fun _ => .ite (fun _ => ?_) fun _ => ?_
    · exact yields_procedure inherited known _
    · exact .failExpecting _ _
  · exact yields_procedure inherited known _
  · exact yields_struct inherited
  · exact yields_binding inherited known _
  · exact yields_binding inherited known _
  · exact .failExpecting _ _
  · exact .ite (fun _ => yields_load inherited) fun _ =>
      .ite (fun _ => yields_statement inherited known) fun _ => .fail _

end Within

theorem isInner_innerWithin (depth : Nat) : IsInner traits (innerWithin depth) := by
  induction depth with
  | zero => exact ⟨.exhaust, .exhaust, .exhaust⟩
  | succ depth ih =>
    exact ⟨yields_expressionOf inherited ih, yields_operandOf inherited ih, yields_nodeOf inherited ih⟩

theorem yields_node : node.Yields traits.node traits.standing :=
  .behind fun _ => yields_nodeOf inherited (isInner_innerWithin inherited _)

theorem yields_nodes :
    nodes.Yields (fun result => ∀ node ∈ result, traits.node node) traits.standing := by
  refine .loop (fun sequence => ∀ node ∈ sequence, traits.node node) _ (by simp)
    fun sequence formed => .behind fun current => ?_
  split
  · exact .pure formed
  · exact .behind fun _ => .pure formed
  · exact (yields_recovering (yields_node inherited)).bind fun found known =>
      .pure (forall_append_toList formed known)

end Parser

/-- If something is known of all tokens that are parsed, the trees have the traits that go with it. -/
theorem Traits.AreInherited.nodes {traits : Traits} (inherited : traits.AreInherited) {file : File}
    {tokens : List Token} (stands : traits.standing.holds (Parsed.start file tokens)) :
    ∀ node ∈ (Parsed.ofTokens file tokens).nodes, traits.node node := by
  have known := Parser.yields_nodes inherited (Parsed.start file tokens) stands
  intro node member
  simp only [Parsed.ofTokens] at member
  cases result : (Parser.nodes.run (Parsed.start file tokens)).1 with
  | none => simp [result] at member
  | some nodes => exact known nodes result node (by simpa [result] using member)

/-- To be well formed, whatever is known of tokens. -/
def Traits.wellFormed : Traits where
  token _ := True
  type := Ty.IsWritten
  parameter := Member.IsWellFormed
  field := Member.IsWellFormed
  expression := Expr.IsWellFormed
  node := Node.IsWellFormed

theorem Expr.isWellFormedOption_iff {expression : Option Expr} :
    Expr.IsWellFormedOption expression ↔ ∀ inner ∈ expression, inner.IsWellFormed := by
  cases expression <;> simp [IsWellFormedOption]

theorem Form.isWellFormed_of_parts {form : Form} (parts : Traits.wellFormed.FormParts form) :
    form.IsWellFormed := by
  cases form with
  | reference => exact parts.2
  | field => exact parts.1
  | call => exact ⟨parts.1, (Expr.isWellFormedAll_iff _).mpr parts.2⟩
  | block => exact (Node.isWellFormedAll_iff _).mpr parts
  | conditional | loop => exact ⟨parts.1, parts.2.1, Expr.isWellFormedOption_iff.mpr parts.2.2⟩
  | binary | unary | cast | new | delete | defer | bool | integer | real | text | character
  | uninitialized => exact parts

theorem Node.isWellFormed_of_parts {node : Node} (parts : Traits.wellFormed.NodeParts node) :
    node.IsWellFormed := by
  cases node with
  | procedure span head body =>
    obtain ⟨⟨symbol, -, signature⟩, isExternal, inside⟩ := parts
    exact ⟨⟨symbol, signature.parameters, signature.result⟩, isExternal, Expr.isWellFormedOption_iff.mpr inside⟩
  | struct span declared => exact ⟨parts.1, parts.2.2⟩
  | binding span head initial =>
    obtain ⟨⟨symbol, -, written⟩, inside⟩ := parts
    refine ⟨⟨symbol, written⟩, ?_⟩
    cases initial with
    | none => trivial
    | some value => exact inside value rfl
  | load span path => trivial
  | expression inner => exact parts
  | assignment span target operator value => exact parts

theorem Traits.areInherited_wellFormed : wellFormed.AreInherited where
  builtin _ := ⟨trivial, trivial⟩
  pointer written := ⟨written.plain, written.unbound⟩
  named _ := ⟨trivial, rfl⟩
  signature {signature} known := by
    rw [← signature.type_head none false]
    exact ProcedureHead.isWritten_type
      ⟨fun parameter member => (known.parameters parameter member).2, known.result⟩
  parameter _ written := ⟨rfl, written⟩
  field _ written := ⟨rfl, written⟩
  expression unmarked parts := ⟨unmarked, Form.isWellFormed_of_parts parts⟩
  bracketed {expression} _ formed := by
    obtain ⟨info, form⟩ := expression
    exact formed
  node := Node.isWellFormed_of_parts

/-- Whatever tokens are parsed, the trees are well formed. -/
theorem Parsed.isWellFormed_nodes (file : File) (tokens : List Token) :
    ∀ node ∈ (ofTokens file tokens).nodes, node.IsWellFormed :=
  Traits.areInherited_wellFormed.nodes fun _ _ => trivial

end Cadence
