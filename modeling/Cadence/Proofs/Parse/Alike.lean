import Cadence.Proofs.Parse.Correspondence
import Cadence.Proofs.Parse.Progress

/-!
# Parsing depends on tokens and line breaks only

From tokens that belong together every parser makes trees and errors that belong together. One lemma
for each parser, in the order of their definitions. What nests is given by an induction on how deeply
it may nest.
-/
namespace Cadence

open Source (File Span)

variable {c : Correspondence}

/-- A span up to the end of something that may be missing. -/
theorem Correspondence.throughOption {span span' : Span} {last last' : Option Span}
    (same : c.spans span span') (related : Option.Rel c.spans last last') :
    c.spans (span.throughOption last) (span'.throughOption last') := by
  cases related with
  | none => exact same
  | some related => exact c.through same related

theorem rel_map {α β γ δ : Type} {relates : α → β → Prop} {final : γ → δ → Prop} {first : α → γ}
    {second : β → δ} {left : Option α} {right : Option β} (related : Option.Rel relates left right)
    (implies : ∀ item item', relates item item' → final (first item) (second item')) :
    Option.Rel final (left.map first) (right.map second) := by
  cases related with
  | none => exact .none
  | some related => exact .some (implies _ _ related)

namespace Parser

theorem agrees_qualifiedType :
    qualifiedType.Agrees c (Spanned.Alike c (Ty.Alike c)) qualifiedType := by
  refine Agrees.consumeIdentifier.bind fun path path' related => Agrees.onToken fun current current' same =>
    .ite (by rw [c.name_eq same]) (fun _ => ?_) fun _ => .pure ⟨.named related, related.2⟩
  refine (Agrees.loop c.spans related.2 fun span span' known => ?_).bind fun span span' known =>
    .fail (.qualifiedPath known)
  refine (Agrees.consumeIf _).bind ?_
  rintro more _ rfl
  refine .ite Iff.rfl (fun _ => ?_) fun _ => .pure (.done known)
  exact Agrees.consumeIdentifier.bind fun segment segment' next => .pure (.more (c.through known next.2))

theorem agrees_parameterName? :
    parameterName?.Agrees c (Option.Rel (Spanned.Alike c Eq)) parameterName? := by
  refine Agrees.onToken fun current current' same => ?_
  rw [c.lexeme_eq same]
  split
  · exact .pure .none
  · refine Agrees.nextToken.bind fun next next' following => ?_
    refine .ite (by rw [c.name_eq following]) (fun _ => ?_) fun _ => .pure .none
    exact .advanced (.advanced (.pure (.some ⟨rfl, c.span same⟩)))

/-- Parameters that belong together. -/
inductive AlikeParameter (c : Correspondence) : Parameter → Parameter → Prop
  | member {member member' : Member} : member.Alike c member' →
      AlikeParameter c (.member member) (.member member')
  | varargs {marker marker' : Token} : c.tokens marker marker' →
      AlikeParameter c (.varargs marker.span) (.varargs marker'.span)

section Types

variable {type : Parser Annotation} (types : type.Agrees c (Spanned.Alike c (Ty.Alike c)) type)
include types

theorem agrees_parameter : (parameter type).Agrees c (AlikeParameter c) (parameter type) := by
  refine Agrees.onToken fun current current' same => .ite (by rw [c.name_eq same]) (fun _ => ?_) fun _ => ?_
  · exact .advanced (.pure (.varargs same))
  · refine agrees_parameterName?.bind fun name name' named => types.bind fun annotated annotated' related =>
      .pure (.member ⟨?_, related, rfl⟩)
    cases named with
    | none => exact ⟨rfl, related.2⟩
    | some named => exact named

omit types in
theorem agrees_membersOf {parameters parameters' : List Parameter}
    (related : List.Forall₂ (AlikeParameter c) parameters parameters') :
    (membersOf parameters).Agrees c
      (fun result result' => List.Forall₂ (Member.Alike c) result.1 result'.1 ∧ result.2 = result'.2)
      (membersOf parameters') := by
  induction related with
  | nil => exact .pure ⟨.nil, rfl⟩
  | cons first rest ih =>
    cases first with
    | member first =>
      refine ih.bind fun result result' others => .pure ⟨.cons first others.1, others.2⟩
    | varargs marker =>
      -- three dots that something follows are reported where they stand
      cases rest with
      | nil => exact .pure ⟨.nil, rfl⟩
      | cons _ _ => exact .fail (.misplacedVarargs marker)

/-- Signatures that belong together. -/
structure AlikeSignature (c : Correspondence) (left right : Signature) : Prop where
  parameters : List.Forall₂ (Member.Alike c) left.parameters right.parameters
  isVariadic : left.isVariadic = right.isVariadic
  result : Option.Rel (Spanned.Alike c (Ty.Alike c)) left.result right.result
  span : c.spans left.span right.span

theorem agrees_signatureOf : (signatureOf type).Agrees c (AlikeSignature c) (signatureOf type) := by
  refine (Agrees.consume _).bind fun opening opening' same => ?_
  refine (Agrees.commaSeparated same _ (agrees_parameter types)).bind fun listed listed' known => ?_
  refine (agrees_membersOf known.1).bind fun members members' others => ?_
  refine (Agrees.led _ types).bind fun result result' related => .pure ⟨others.1, others.2, related, ?_⟩
  exact c.throughOption (c.through (c.span same) (c.span known.2)) (rel_map related fun _ _ item => item.2)

omit types in
theorem AlikeSignature.alike_type {signature signature' : Signature}
    (alike : AlikeSignature c signature signature') : Ty.Alike c signature.type signature'.type := by
  obtain ⟨parameters, isVariadic, result, span⟩ := signature
  obtain ⟨parameters', _, result', span'⟩ := signature'
  obtain ⟨members, rfl, results, -⟩ := alike
  dsimp only at members results
  refine .procedure ?_ ?_ ?_
  · simp only [List.map_map, Function.comp_def]
    induction members with
    | nil => rfl
    | cons first _ ih => simp [ih, first.binder.1]
  · simp only [List.map_map, Function.comp_def]
    exact List.forall₂_map_left_iff.mpr (List.forall₂_map_right_iff.mpr (members.imp fun _ _ item => item.type.1))
  · cases results with
    | none => exact .builtin _
    | some related => exact related.1

theorem agrees_typeOf : (typeOf type).Agrees c (Spanned.Alike c (Ty.Alike c)) (typeOf type) := by
  refine Agrees.onToken fun current current' same => ?_
  rw [c.lexeme_eq same]
  split
  · exact .advanced (types.bind fun target target' related =>
      .pure ⟨.pointer related.1, c.through (c.span same) related.2⟩)
  · exact .advanced (.pure ⟨.builtin _, c.span same⟩)
  · exact agrees_qualifiedType
  · exact (agrees_signatureOf types).bind fun signature signature' related =>
      .pure ⟨related.alike_type, related.span⟩
  · exact .failExpecting _ .none

end Types

theorem agrees_type : type.Agrees c (Spanned.Alike c (Ty.Alike c)) type := by
  -- types nest no deeper than there are tokens
  refine Agrees.countAhead.bind ?_
  rintro count _ rfl
  generalize count + 1 = depth
  induction depth with
  | zero => exact .exhaust
  | succ depth ih => exact agrees_typeOf ih

theorem agrees_signature : signature.Agrees c (AlikeSignature c) signature :=
  agrees_signatureOf agrees_type

theorem alike_ofForm {span span' : Span} {form form' : Form} (spans : c.spans span span')
    (forms : form.Alike c form') : (Expr.ofForm span form).Alike c (Expr.ofForm span' form') :=
  .mk ⟨spans, .none, rfl, rfl⟩ forms

theorem alike_typed {span span' : Span} {type type' : Ty} {form form' : Form}
    (spans : c.spans span span') (types : type.Alike c type') (forms : form.Alike c form') :
    (Expr.typed span type form).Alike c (Expr.typed span' type' form') :=
  .mk ⟨spans, .some types, rfl, rfl⟩ forms

theorem alike_withSpan {left right : Expr} (alike : left.Alike c right) {span span' : Span}
    (spans : c.spans span span') : (left.withSpan span).Alike c (right.withSpan span') := by
  obtain ⟨info, form⟩ := alike
  exact .mk ⟨spans, info.type, info.required, info.tail⟩ form

theorem spans_expr {left right : Expr} (alike : left.Alike c right) : c.spans left.span right.span := by
  obtain ⟨info, _⟩ := alike
  exact info.span

theorem spans_node {left right : Node} (alike : left.Alike c right) : c.spans left.span right.span := by
  cases alike with
  | procedure span | struct span | binding span | load span | assignment span => exact span
  | expression inner => exact spans_expr inner

theorem isPlace_eq {left right : Expr} (alike : left.Alike c right) : left.isPlace = right.isPlace := by
  obtain ⟨_, form⟩ := alike
  cases form with
  | unary operator => simp only [Expr.isPlace, Expr.form, operator.1]
  | _ => rfl

theorem agrees_binaryOperator? :
    binaryOperator?.Agrees c
      (Option.Rel fun found found' => found.1.Alike c Eq found'.1 ∧ found.2 = found'.2)
      binaryOperator? := by
  refine Agrees.placed.bind fun current current' alike => .pure ?_
  -- a sign at the start of a line is no operator, and lines are broken alike
  obtain ⟨same, continues⟩ := alike
  simp only [PlacedToken.binary?, c.lexeme_eq same, continues]
  split
  · split
    · split
      · exact .some ⟨⟨rfl, c.span same⟩, rfl⟩
      · exact .none
    · exact .none
  · exact .none

theorem agrees_climbWithin {operand : Parser Expr} (operands : operand.Agrees c (Expr.Alike c) operand)
    (depth least : Nat) :
    (climbWithin operand depth least).Agrees c (Expr.Alike c) (climbWithin operand depth least) := by
  induction depth generalizing least with
  | zero => exact operands
  | succ depth ih =>
    refine operands.bind fun first first' known => .loop (Expr.Alike c) known fun left left' related => ?_
    refine agrees_binaryOperator?.bind fun found found' operators => ?_
    cases operators with
    | none => exact .pure (.done related)
    | @some found found' operators =>
      obtain ⟨sign, precedence⟩ := found
      obtain ⟨sign', _⟩ := found'
      obtain ⟨signs, rfl⟩ := operators
      refine .ite Iff.rfl (fun _ => .pure (.done related)) fun _ => .advanced ?_
      refine (ih _).bind fun right right' others => .pure (.more ?_)
      exact alike_ofForm (c.through (spans_expr related) (spans_expr others)) (.binary related signs others)

/-- The parsers for what lies within an expression make the same of what belongs together. -/
structure AgreesWithin (c : Correspondence) (inner : Inner) : Prop where
  expression : inner.expression.Agrees c (Expr.Alike c) inner.expression
  operand : inner.operand.Agrees c (Expr.Alike c) inner.operand
  node : inner.node.Agrees c (Node.Alike c) inner.node

theorem agrees_recovering {node : Parser Node} (nodes : node.Agrees c (Node.Alike c) node) :
    (recovering node).Agrees c (Option.Rel (Node.Alike c)) (recovering node) := by
  refine Agrees.countAhead.bind ?_
  rintro before _ rfl
  refine nodes.attempt.bind fun result result' related => ?_
  cases related with
  | some related => exact .pure (.some related)
  | none =>
    -- a token is skipped if none was taken
    refine Agrees.countAhead.bind ?_
    rintro after _ rfl
    exact .ite Iff.rfl (fun _ => .advanced (.pure .none)) fun _ => .pure .none

theorem agrees_characterDirective :
    characterDirective.Agrees c (Expr.Alike c) characterDirective := by
  refine Agrees.onToken fun directive directive' first => .advanced ?_
  refine Agrees.onToken fun literal literal' second => ?_
  rw [c.lexeme_eq second]
  split
  · refine .advanced ?_
    split
    · exact .pure (alike_typed (c.through (c.span first) (c.span second)) (.builtin _) (.character _))
    · exact .fail (.notOneCharacter second first)
  · exact .failExpecting _ .none

theorem rel_append_toList {nodes nodes' : List Node} {found found' : Option Node}
    (related : List.Forall₂ (Node.Alike c) nodes nodes') (more : Option.Rel (Node.Alike c) found found') :
    List.Forall₂ (Node.Alike c) (nodes ++ found.toList) (nodes' ++ found'.toList) := by
  refine List.rel_append related ?_
  cases more with
  | none => exact .nil
  | some more => exact .cons more .nil

theorem agrees_block {node : Parser Node} (nodes : node.Agrees c (Node.Alike c) node) :
    (block node).Agrees c (Expr.Alike c) (block node) := by
  refine (Agrees.consume _).bind fun opening opening' first => ?_
  refine (Agrees.loop (List.Forall₂ (Node.Alike c)) .nil fun sequence sequence' related => ?_).bind
    fun result result' (known : List.Forall₂ (Node.Alike c) result.1 result'.1 ∧
      c.tokens result.2 result'.2) =>
    .pure (alike_ofForm (c.through (c.span first) (c.span known.2)) (.block known.1))
  refine Agrees.onToken fun current current' same => ?_
  rw [c.lexeme_eq same]
  split
  · exact .advanced (.pure (.done ⟨related, same⟩))
  · exact .advanced (.pure (.more related))
  · exact .failUnclosed first
  · exact (agrees_recovering nodes).bind fun found found' more =>
      .pure (.more (rel_append_toList related more))

theorem agrees_literal {type : Ty} {form : Form} (types : type.Alike c type) (forms : form.Alike c form) :
    (literal type form).Agrees c (Expr.Alike c) (literal type form) :=
  Agrees.onToken fun _ _ same => .advanced (.pure (alike_typed (c.span same) types forms))

section Within

variable {inner : Inner} (known : AgreesWithin c inner)
include known

theorem agrees_suffixes {operand operand' : Expr} (related : operand.Alike c operand') :
    (suffixes inner operand).Agrees c (Expr.Alike c) (suffixes inner operand') := by
  refine .loop (Expr.Alike c) related fun operand operand' related => ?_
  refine Agrees.onToken fun current current' same => ?_
  rw [c.lexeme_eq same]
  split
  · refine .advanced (agrees_type.bind fun annotated annotated' types => .pure (.more ?_))
    exact alike_typed (c.through (spans_expr related) types.2) types.1 (.cast related types)
  · refine .advanced ((Agrees.commaSeparated same _ known.expression).bind
      fun arguments arguments' others => .pure (.more ?_))
    exact alike_ofForm (c.through (spans_expr related) (c.span others.2)) (.call related others.1)
  · refine .advanced (Agrees.consumeIdentifier.bind fun field field' named => .pure (.more ?_))
    exact alike_ofForm (c.through (spans_expr related) named.2) (.field related named)
  · exact .pure (.done related)

theorem agrees_bracketed : (bracketed inner).Agrees c (Expr.Alike c) (bracketed inner) := by
  refine Agrees.onToken fun opening opening' first => .advanced ?_
  refine known.expression.bind fun parsed parsed' related => ?_
  refine Agrees.onToken fun current current' same => .ite (by rw [c.name_eq same])
    (fun _ => .failUnclosed first) fun _ => ?_
  exact (Agrees.consume _).bind fun closing closing' last =>
    .pure (alike_withSpan related (c.through (c.span first) (c.span last)))

theorem agrees_branches {form : Expr → Expr → Option Expr → Form}
    (forms : ∀ {condition condition' consequent consequent' alternative alternative'},
      condition.Alike c condition' → consequent.Alike c consequent' →
      Option.Rel (Expr.Alike c) alternative alternative' →
      (form condition consequent alternative).Alike c (form condition' consequent' alternative')) :
    (branches inner form).Agrees c (Expr.Alike c) (branches inner form) := by
  refine Agrees.onToken fun keyword keyword' same => .advanced ?_
  refine known.expression.bind fun condition condition' first => ?_
  refine known.expression.bind fun consequent consequent' second => ?_
  refine (Agrees.led _ known.expression).bind fun alternative alternative' third =>
    .pure (alike_ofForm ?_ (forms first second third))
  exact c.throughOption (c.through (c.span same) (spans_expr second)) (rel_map third fun _ _ => spans_expr)

theorem agrees_primary : (primary inner).Agrees c (Expr.Alike c) (primary inner) := by
  refine Agrees.onToken fun current current' same => ?_
  rw [c.lexeme_eq same]
  split
  · exact agrees_literal (.builtin _) (.bool _)
  · exact agrees_literal (.builtin _) (.bool _)
  · exact agrees_literal (.builtin _) (.integer _ _)
  · exact agrees_literal (.builtin _) (.real _)
  · exact agrees_literal (.pointer (.builtin _)) (.text _)
  · exact agrees_literal (.builtin _) (.character _)
  · exact .ite Iff.rfl (fun _ => agrees_characterDirective) fun _ => .failExpecting _ .none
  · exact .advanced (.pure (alike_ofForm (c.span same) (.reference ⟨rfl, c.span same⟩)))
  · exact agrees_bracketed known
  · exact agrees_block known.node
  · exact agrees_branches known fun first second third => .conditional first second third
  · exact agrees_branches known fun first second third => .conditional first second third
  · exact agrees_branches known fun first second third => .loop first second third
  · exact agrees_branches known fun first second third => .loop first second third
  · exact .advanced (agrees_type.bind fun annotated annotated' types => .pure
      (alike_typed (c.through (c.span same) types.2) (.pointer types.1) (.new types)))
  · exact .advanced (known.expression.bind fun operand operand' related => .pure
      (alike_ofForm (c.through (c.span same) (spans_expr related)) (.delete related)))
  · exact .advanced (known.node.bind fun node node' related => .pure
      (alike_ofForm (c.through (c.span same) (spans_node related)) (.defer related)))
  all_goals exact .failExpecting _ .none

theorem agrees_operandOf : (operandOf inner).Agrees c (Expr.Alike c) (operandOf inner) := by
  have plain : (primary inner >>= suffixes inner).Agrees c (Expr.Alike c)
      (primary inner >>= suffixes inner) :=
    (agrees_primary known).bind fun operand operand' related => agrees_suffixes known related
  refine Agrees.onToken fun current current' same => ?_
  rw [c.lexeme_eq same]
  split
  · refine .ite Iff.rfl (fun _ => ?_) fun _ => plain
    exact .advanced (known.operand.bind fun operand operand' related => .pure
      (alike_ofForm (c.through (c.span same) (spans_expr related)) (.unary ⟨rfl, c.span same⟩ related)))
  · exact plain

theorem agrees_expressionOf : (expressionOf inner).Agrees c (Expr.Alike c) (expressionOf inner) :=
  agrees_climbWithin (agrees_operandOf known) _ _

omit known in
theorem agrees_procedureName {keyword keyword' : Token} (first : c.tokens keyword keyword') :
    (procedureName keyword).Agrees c (Option.Rel (Spanned.Alike c Eq)) (procedureName keyword') := by
  refine Agrees.onToken fun current current' same => ?_
  rw [c.lexeme_eq same]
  split
  · exact .advanced (.pure (.some ⟨rfl, c.span same⟩))
  · exact .advanced (.pure (.some ⟨rfl, c.span same⟩))
  · exact (Agrees.report (.unnamedProcedure first same)).bind fun _ _ _ => .pure .none
  · refine Agrees.nextToken.bind fun next next' following =>
      .ite (by rw [c.name_eq following]) (fun _ => ?_) fun _ => .fail (.noProcedure first same)
    exact (Agrees.report (.invalidProcedureName same)).bind fun _ _ _ => .advanced (.pure .none)

theorem agrees_procedureBody {keyword keyword' : Token} (first : c.tokens keyword keyword') :
    (procedureBody inner keyword).Agrees c (Expr.Alike c) (procedureBody inner keyword') := by
  refine Agrees.onToken fun current current' same => ?_
  rw [c.lexeme_eq same]
  split
  · exact .advanced known.expression
  · exact agrees_block known.node
  · exact .fail (.incompleteProcedure first same)

theorem agrees_procedure {external external' : Option Token} (from_ : Option.Rel c.tokens external external') :
    (procedure inner external).Agrees c (Node.Alike c) (procedure inner external') := by
  refine (Agrees.consume _).bind fun keyword keyword' first => ?_
  -- the procedure starts with the mark that it is defined elsewhere, if there is one
  have start : c.spans ((external.map Token.span).getD keyword.span)
      ((external'.map Token.span).getD keyword'.span) := by
    cases from_ with
    | none => exact c.span first
    | some same => exact c.span same
  have outside : external.isSome = external'.isSome := by cases from_ <;> rfl
  refine (agrees_procedureName first).bind fun binder binder' named => ?_
  refine Agrees.onToken fun current current' same => .ite (by rw [c.name_eq same])
    (fun _ => .fail (.incompleteProcedure first same)) fun _ => ?_
  refine agrees_signature.bind fun signature signature' related => ?_
  have heads : (signature.head binder external.isSome).Alike c (signature'.head binder' external'.isSome) :=
    ⟨named, related.parameters, related.isVariadic, related.result, outside, rfl⟩
  refine .ite (by rw [outside]) (fun _ => .pure (.procedure (c.through start related.span) heads .none))
    fun _ => ?_
  exact (agrees_procedureBody known first).bind fun body body' bodies =>
    .pure (.procedure (c.through start (spans_expr bodies)) heads (.some bodies))

omit known in
theorem agrees_structName {keyword keyword' : Token} (first : c.tokens keyword keyword') :
    (structName keyword).Agrees c (Option.Rel (Spanned.Alike c Eq)) (structName keyword') := by
  refine Agrees.onToken fun current current' same => ?_
  rw [c.lexeme_eq same]
  split
  · exact .advanced (.pure (.some ⟨rfl, c.span same⟩))
  · exact (Agrees.report (.unnamedStruct first same)).bind fun _ _ _ => .pure .none
  · exact .failExpecting _ (.some ⟨rfl, first⟩)

omit known in
theorem agrees_separator : separator.Agrees c Eq separator := by
  refine (Agrees.consumeIf _).bind ?_
  rintro comma _ rfl
  exact .ite Iff.rfl (fun _ => .pure rfl) fun _ => (Agrees.consumeIf _).bind fun _ _ _ => .pure rfl

omit known in
theorem agrees_structField : structField.Agrees c (Member.Alike c) structField := by
  refine Agrees.consumeIdentifier.bind fun binder binder' named => ?_
  refine (Agrees.consume _).bind fun _ _ _ => agrees_type.bind fun annotated annotated' types => ?_
  exact agrees_separator.bind fun _ _ _ => .pure ⟨named, types, rfl⟩

omit known in
theorem agrees_struct : struct.Agrees c (Node.Alike c) struct := by
  refine (Agrees.consume _).bind fun keyword keyword' first => ?_
  refine (agrees_structName first).bind fun binder binder' named => ?_
  refine (Agrees.consume _).bind fun opening opening' second => ?_
  refine (Agrees.loop (List.Forall₂ (Member.Alike c)) .nil fun fields fields' related => ?_).bind
    fun result result' (known : List.Forall₂ (Member.Alike c) result.1 result'.1 ∧
      c.tokens result.2 result'.2) =>
    .pure (.struct (c.through (c.span first) (c.span known.2)) ⟨named, known.1, rfl⟩)
  refine Agrees.onToken fun current current' same => ?_
  rw [c.lexeme_eq same]
  split
  · exact .advanced (.pure (.done ⟨related, same⟩))
  · exact .failUnclosed second
  · exact agrees_structField.bind fun field field' more =>
      .pure (.more (List.rel_append related (.cons more .nil)))

theorem agrees_initialValue : (initialValue inner).Agrees c (Expr.Alike c) (initialValue inner) :=
  Agrees.onToken fun _ _ same => .ite (by rw [c.name_eq same])
    (fun _ => .advanced (.pure (alike_ofForm (c.span same) .uninitialized))) fun _ => known.expression

theorem agrees_binding (kind : BindingKind) :
    (binding inner kind).Agrees c (Node.Alike c) (binding inner kind) := by
  refine Agrees.onToken fun keyword keyword' first => .advanced ?_
  refine Agrees.consumeIdentifier.bind fun binder binder' named => ?_
  refine (Agrees.led _ agrees_type).bind fun annotated annotated' types => ?_
  refine (Agrees.led _ (agrees_initialValue known)).bind fun value value' values =>
    .pure (.binding ?_ ⟨rfl, named, types, rfl⟩ values)
  exact c.throughOption (c.throughOption (c.through (c.span first) named.2)
    (rel_map types fun _ _ item => item.2)) (rel_map values fun _ _ => spans_expr)

omit known in
theorem agrees_load : load.Agrees c (Node.Alike c) load := by
  refine Agrees.onToken fun directive directive' first => .advanced ?_
  refine Agrees.onToken fun current current' same => ?_
  rw [c.lexeme_eq same]
  split
  · exact .advanced (.pure (.load (c.through (c.span first) (c.span same)) ⟨rfl, c.span same⟩))
  · exact .failExpecting _ (.some ⟨rfl, first⟩)

theorem agrees_assignment {target target' : Expr} (related : target.Alike c target')
    (operator : Option Operator) :
    (assignment inner target operator).Agrees c (Node.Alike c) (assignment inner target' operator) := by
  refine Agrees.onToken fun sign sign' same => .advanced ?_
  refine known.expression.bind fun value value' values => .ite (by rw [isPlace_eq related])
    (fun _ => .pure (.assignment (c.through (spans_expr related) (spans_expr values)) related ?_ values))
    fun _ => .fail (.invalidTarget (spans_expr related) same)
  cases operator with
  | none => exact .none
  | some applied => exact .some ⟨rfl, c.span same⟩

theorem agrees_statement : (statement inner).Agrees c (Node.Alike c) (statement inner) := by
  refine (agrees_expressionOf known).bind fun target target' related => ?_
  refine Agrees.onToken fun current current' same => ?_
  rw [c.lexeme_eq same]
  split
  · exact agrees_assignment known related none
  · split
    · exact agrees_assignment known related _
    · exact .pure (.expression related)
  · exact .pure (.expression related)

theorem agrees_nodeOf : (nodeOf inner).Agrees c (Node.Alike c) (nodeOf inner) := by
  refine Agrees.onToken fun current current' same => ?_
  rw [c.lexeme_eq same]
  split
  · refine .advanced (Agrees.onToken fun next next' following => .ite (by rw [c.name_eq following])
      (fun _ => agrees_procedure known (.some same)) fun _ => .failExpecting _ (.some ⟨rfl, same⟩))
  · exact agrees_procedure known .none
  · exact agrees_struct
  · exact agrees_binding known _
  · exact agrees_binding known _
  · exact .failExpecting _ .none
  · exact .ite Iff.rfl (fun _ => agrees_load) fun _ => .ite Iff.rfl (fun _ => agrees_statement known)
      fun _ => .fail (.noNode same)

end Within

theorem agreesWithin_innerWithin (depth : Nat) : AgreesWithin c (innerWithin depth) := by
  induction depth with
  | zero => exact ⟨.exhaust, .exhaust, .exhaust⟩
  | succ depth ih => exact ⟨agrees_expressionOf ih, agrees_operandOf ih, agrees_nodeOf ih⟩

theorem agrees_node : node.Agrees c (Node.Alike c) node := by
  refine Agrees.countAhead.bind ?_
  rintro count _ rfl
  exact agrees_nodeOf (agreesWithin_innerWithin _)

theorem agrees_nodes : nodes.Agrees c (List.Forall₂ (Node.Alike c)) nodes := by
  refine .loop (List.Forall₂ (Node.Alike c)) .nil fun sequence sequence' related => ?_
  refine Agrees.onToken fun current current' same => ?_
  rw [c.lexeme_eq same]
  split
  · exact .pure (.done related)
  · exact .advanced (.pure (.more related))
  · exact (agrees_recovering agrees_node).bind fun found found' more =>
      .pure (.more (rel_append_toList related more))

end Parser

/-- What parsing yields in two cases belongs together. -/
structure Parsed.Alike (c : Correspondence) (left right : Parsed) : Prop where
  nodes : List.Forall₂ (Node.Alike c) left.nodes right.nodes
  errors : List.Forall₂ (ParseError.Alike c) left.errors right.errors
  tainted : left.tainted = right.tainted
  exhausted : left.exhausted = right.exhausted

theorem rel_dropLast {α β : Type} {relates : α → β → Prop} {left : List α} {right : List β}
    (related : List.Forall₂ relates left right) : List.Forall₂ relates left.dropLast right.dropLast := by
  induction related with
  | nil => exact .nil
  | cons first rest ih =>
    cases rest with
    | nil => exact .nil
    | cons _ _ => exact .cons first ih

theorem rel_getLastD {α β : Type} {relates : α → β → Prop} {left : List α} {right : List β}
    (related : List.Forall₂ relates left right) (some_ : left ≠ []) (other : α) (other' : β) :
    relates (left.getLastD other) (right.getLastD other') := by
  induction related generalizing other other' with
  | nil => exact absurd rfl some_
  | cons first rest ih =>
    cases rest with
    | nil => exact first
    | cons _ _ => exact ih (List.cons_ne_nil _ _) other other'

/-- The end of the input is always there. -/
theorem placeTokens_endTokens_ne_nil (file : File) (tokens : List Token) :
    placeTokens file (endTokens file tokens) ≠ [] := by
  obtain ⟨front, ending, same, _⟩ := exists_endTokens file tokens
  intro nothing
  have placed := map_token_placeTokens file (endTokens file tokens)
  rw [nothing, same] at placed
  exact List.append_ne_nil_of_right_ne_nil _ (List.cons_ne_nil _ _) placed.symm

/-- Tokens that belong together and continue lines alike are parsed alike. -/
theorem Parsed.alike_ofTokens {file file' : File} {tokens tokens' : List Token}
    (placed : List.Forall₂ (PlacedToken.Alike c) (placeTokens file (endTokens file tokens))
      (placeTokens file' (endTokens file' tokens'))) :
    (ofTokens file tokens).Alike c (ofTokens file' tokens') := by
  have start : (start file tokens).Alike c (start file' tokens') :=
    ⟨rel_dropLast placed, rel_getLastD placed (placeTokens_endTokens_ne_nil file tokens) _ _, .nil, rfl, rfl⟩
  obtain ⟨results, states⟩ := Parser.agrees_nodes (c := c) _ _ start
  refine ⟨?_, states.errors, states.tainted, states.exhausted⟩
  simp only [ofTokens]
  generalize (Parser.nodes.run (Parsed.start file tokens)).1 = found at results
  generalize (Parser.nodes.run (Parsed.start file' tokens')).1 = found' at results
  cases results with
  | none => exact .nil
  | some related => exact related

end Cadence
