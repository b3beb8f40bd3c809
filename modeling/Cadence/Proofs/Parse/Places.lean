import Cadence.Proofs.Parse.Accuracy
import Cadence.Proofs.Syntax.Places

/-!
# Every place in a tree is that of a run of tokens

Whatever a report can point at in a tree, a name as much as an expression, goes from the start of one
token to the end of the same or a later one. One lemma for each parser, in the order of their
definitions. What nests is given by an induction on how deeply it may nest.
-/
namespace Cadence

open Source (File Span)

/-- Each of the spans is that of a run of the tokens. -/
def AreSpansIn (spans : List Span) (tokens : List PlacedToken) : Prop :=
  ∀ span ∈ spans, CoveredIn (IsSpanOf span) tokens

theorem IsSpanOf.coveredIn {span : Span} {tokens : List PlacedToken} (isSpan : IsSpanOf span tokens) :
    CoveredIn (IsSpanOf span) tokens :=
  ⟨tokens, List.infix_refl tokens, isSpan⟩

theorem coveredIn_token (placed : PlacedToken) : CoveredIn (IsSpanOf placed.token.span) [placed] :=
  (isSpanOf_singleton placed).coveredIn

/-- From a run of the tokens to a run of those behind them is a run of all of them. -/
theorem CoveredIn.through {left right : Span} {front behind : List PlacedToken}
    (first : CoveredIn (IsSpanOf left) front) (second : CoveredIn (IsSpanOf right) behind) :
    CoveredIn (IsSpanOf (left.through right)) (front ++ behind) := by
  obtain ⟨own, ⟨before, rest, rfl⟩, starts, -⟩ := first
  obtain ⟨last, ⟨between, after, rfl⟩, -, ends⟩ := second
  refine ⟨own ++ (rest ++ between ++ last), ⟨before, after, by simp⟩, ?_⟩
  exact isSpanOf_through starts (ends.append _)

section Spans

variable {spans others : List Span} {tokens front behind : List PlacedToken}

@[simp]
theorem areSpansIn_nil : AreSpansIn [] tokens := nofun

@[simp]
theorem areSpansIn_cons {span : Span} :
    AreSpansIn (span :: spans) tokens ↔
      CoveredIn (IsSpanOf span) tokens ∧ AreSpansIn spans tokens := List.forall_mem_cons

@[simp]
theorem areSpansIn_append :
    AreSpansIn (spans ++ others) tokens ↔ AreSpansIn spans tokens ∧ AreSpansIn others tokens :=
  List.forall_mem_append

theorem areSpansIn_flatMap {α : Type} {places : α → List Span} {items : List α} :
    AreSpansIn (items.flatMap places) tokens ↔ ∀ item ∈ items, AreSpansIn (places item) tokens :=
  List.forall_mem_flatMap

namespace AreSpansIn

theorem mono {fewer : List PlacedToken} (inside : AreSpansIn spans fewer) (isPart : fewer <:+: tokens) :
    AreSpansIn spans tokens := fun span member => (inside span member).mono isPart

theorem append (inside : AreSpansIn spans front) (behind : List PlacedToken) :
    AreSpansIn spans (front ++ behind) := inside.mono (List.prefix_append _ _).isInfix

theorem prepend (inside : AreSpansIn spans behind) (front : List PlacedToken) :
    AreSpansIn spans (front ++ behind) := inside.mono (List.suffix_append _ _).isInfix

/-- What stands in front together with what stands behind it. -/
theorem both (first : AreSpansIn spans front) (second : AreSpansIn others behind) :
    AreSpansIn (spans ++ others) (front ++ behind) :=
  areSpansIn_append.mpr ⟨first.append behind, second.prepend front⟩

/-- The same with the span from something in front to something behind it. -/
theorem joined {left right : Span} (first : AreSpansIn spans front) (second : AreSpansIn others behind)
    (inFront : left ∈ spans) (isBehind : right ∈ others) :
    AreSpansIn (left.through right :: (spans ++ others)) (front ++ behind) :=
  areSpansIn_cons.mpr ⟨(first left inFront).through (second right isBehind), first.both second⟩

/-- A token in front of a part. -/
theorem behindToken (placed : PlacedToken) {right : Span} (inside : AreSpansIn others behind)
    (member : right ∈ others) :
    AreSpansIn (placed.token.span.through right :: others) ([placed] ++ behind) :=
  areSpansIn_cons.mpr ⟨(coveredIn_token placed).through (inside right member), inside.prepend _⟩

end AreSpansIn

/-- What may stand behind a span extends it. -/
theorem CoveredIn.throughOption {span : Span} {found : Option Span}
    (inside : CoveredIn (IsSpanOf span) front) (extends_ : AreSpansIn found.toList behind) :
    CoveredIn (IsSpanOf (span.throughOption found)) (front ++ behind) := by
  cases found with
  | none => exact inside.mono (List.prefix_append _ _).isInfix
  | some last => exact inside.through (extends_ last (by simp))

end Spans

/-- The places of an element of a list of parameters. -/
def Parameter.places : Parameter → List Span
  | .member declared => declared.places
  | .varargs _ => []

/-- The places in the parameters and the result of a procedure, and its own. -/
def Signature.places (signature : Signature) : List Span :=
  signature.span :: (signature.parameters.flatMap Member.places ++
    signature.result.toList.flatMap Annotation.places)

theorem Signature.places_type (signature : Signature) :
    signature.type.places ⊆ signature.places :=
  (signature.head none false).places_type signature.span

namespace Parser

variable {α : Type} {places : α → List Span}

/-- The places in what a parser yields are those of tokens that it takes. -/
def Places (parser : Parser α) (places : α → List Span) : Prop :=
  parser.Spells fun own found => AreSpansIn (places found) own

/-- The places of what may be missing. -/
def optional (places : α → List Span) (found : Option α) : List Span := found.toList.flatMap places

/-- What has its span among its places has it where they are. -/
theorem areSpansIn_of_optional {found : Option α} {spanOf : α → Span} {tokens : List PlacedToken}
    (member : ∀ found, spanOf found ∈ places found) (known : AreSpansIn (optional places found) tokens) :
    AreSpansIn (found.map spanOf).toList tokens := by
  cases found with
  | none => exact areSpansIn_nil
  | some found => exact List.forall_mem_singleton.mpr (known _ (by simp [optional, member found]))

theorem places_led {mark : TokenName} (present : mark ≠ .endOfInput) {parser : Parser α}
    (inner : parser.Places places) : (led mark parser).Places (optional places) := by
  refine fun before => (spells_led present inner before).mono fun own found taken => ?_
  cases found with
  | none => exact areSpansIn_nil
  | some result =>
    obtain ⟨sign, inside, rfl, -, known⟩ := taken
    simpa [optional] using known.prepend [sign]

theorem places_commaSeparated {element : Parser α} {opening : Token} {closing : TokenName}
    (present : closing ≠ .endOfInput) (elements : element.Places places) :
    (commaSeparated opening closing element).Places fun result =>
      result.2.span :: result.1.flatMap places := by
  -- an element is a piece of the list that its places are to be found in
  let group (found : α) : List Piece := [.between fun own => AreSpansIn (places found) own]
  have grouped : element.Spells fun own found => Sequence (group found) own :=
    fun before => (elements before).mono fun own found known => .singleton known
  refine fun before => (spells_commaSeparated present grouped before).mono ?_
  rintro own ⟨found, last⟩ ⟨inside, placed, rfl, rfl, -, listed⟩
  refine areSpansIn_cons.mpr ⟨(coveredIn_token placed).mono (List.suffix_append _ _).isInfix, ?_⟩
  refine areSpansIn_flatMap.mpr fun item member => ?_
  obtain ⟨own, isPart, known⟩ := listed.exists_covers
    (mem_scattered (List.mem_map_of_mem (f := group) member) (List.mem_singleton_self _))
  exact AreSpansIn.mono known (isPart.trans (List.prefix_append _ _).isInfix)

theorem places_consumeIdentifier : consumeIdentifier.Places fun binder => [binder.span] := by
  refine fun before => (spells_consumeIdentifier before).mono fun own binder covers => ?_
  obtain ⟨placed, rfl, -, same⟩ := covers
  exact List.forall_mem_singleton.mpr (same ▸ coveredIn_token placed)

theorem places_qualifiedType : qualifiedType.Places Annotation.places := by
  intro before
  refine .bind (spells_consumeIdentifier before) fun path own after covers => ?_
  obtain ⟨placed, rfl, -, same⟩ := covers
  have whole : IsSpanOf path.span [placed] := same ▸ isSpanOf_singleton placed
  refine .token (.ite (fun _ => ?_) fun _ => .pure ?_)
  · exact .chain (reads_path whole) fun span total last isSpan =>
      .fail fun ordered => ordered.isOrdered isSpan
  · simpa [Ty.places, Annotation.places] using whole.coveredIn

theorem spells_membersOf_mem (parameters : List Parameter) :
    (membersOf parameters).Spells fun own result => own = [] ∧
      result.1.flatMap Member.places ⊆ parameters.flatMap Parameter.places := by
  match parameters with
  | [] => exact fun _ => .pure ⟨rfl, List.nil_subset _⟩
  | [.varargs _] => exact fun _ => .pure ⟨rfl, List.nil_subset _⟩
  | .varargs _ :: _ :: _ => exact fun _ => .fail fun _ => trivial
  | .member member :: rest =>
    refine fun before => .bind (spells_membersOf_mem rest before) ?_
    rintro ⟨members, isVariadic⟩ own after ⟨rfl, fewer⟩
    refine .pure ⟨rfl, ?_⟩
    rw [List.flatMap_cons, List.flatMap_cons]
    exact List.append_subset.mpr ⟨List.subset_append_left _ _,
      List.Subset.trans fewer (List.subset_append_right _ _)⟩

section Types

variable {type : Parser Annotation} (types : type.Places Annotation.places)
include types

theorem places_parameter : (parameter type).Places Parameter.places := by
  refine fun before => .token (.ite (fun same => ?_) fun _ => ?_)
  · exact .advance (Token.name_eq_punctuation.mp same) (by simp) (.pure areSpansIn_nil)
  · refine .bind (spells_parameterName? before) fun name? front after named => ?_
    refine .bind (types after) fun annotated own last known => .pure ?_
    refine areSpansIn_cons.mpr ⟨?_, known.prepend front⟩
    cases name? with
    | none => exact (known.prepend front) _ List.mem_cons_self -- it stands where its type stands
    | some binder =>
      obtain ⟨name, colon, rfl, -, same, -⟩ := named
      rw [Option.getD_some, ← same]
      exact (coveredIn_token name).mono ⟨[], colon :: own, rfl⟩

theorem places_signatureOf : (signatureOf type).Places Signature.places := by
  refine fun before => .bind (spells_consume (by simp) before) ?_
  rintro opening _ after ⟨first, rfl, rfl, -⟩
  refine .bind (places_commaSeparated (by simp) (places_parameter types) after) ?_
  rintro ⟨listed, closing⟩ own later known
  refine .bind (spells_membersOf_mem listed later) ?_
  rintro ⟨members, isVariadic⟩ _ later ⟨rfl, fewer⟩
  refine .bind (places_led (by simp) types later) fun result behind later led => .pure ?_
  rw [List.append_nil]
  obtain ⟨closes, listed⟩ := areSpansIn_cons.mp known
  refine areSpansIn_cons.mpr ⟨?_, ?_⟩
  · -- the whole ends with the result, or with the closing bracket if there is none
    exact ((coveredIn_token first).through closes).throughOption
      (areSpansIn_of_optional (fun _ => List.mem_cons_self) led)
  · exact AreSpansIn.both (fun span member => (listed.prepend [first]) span (fewer member)) led

theorem places_typeOf : (typeOf type).Places Annotation.places := by
  refine fun before => .token ?_
  split
  next same =>
    refine .advance same (by simp) (.bind (types _) fun target own after known => .pure ?_)
    have joined := known.behindToken before.current List.mem_cons_self
    simp only [Ty.places, Annotation.places, areSpansIn_cons] at joined ⊢
    exact ⟨joined.1, joined.2.2⟩
  next same =>
    exact .advance same (by simp) (.pure (areSpansIn_cons.mpr
      ⟨coveredIn_token before.current, areSpansIn_nil⟩))
  next => exact places_qualifiedType before
  next =>
    refine .bind (places_signatureOf types before) fun signature own after known => .pure ?_
    exact areSpansIn_cons.mpr ⟨known _ List.mem_cons_self,
      fun span member => known span (signature.places_type member)⟩
  next => exact .failExpecting _ _

end Types

theorem places_type : type.Places Annotation.places := by
  refine fun before => .look ?_
  generalize before.ahead.length + 1 = depth
  induction depth generalizing before with
  | zero => exact .exhaust
  | succ depth ih => exact places_typeOf (fun before => ih before) before

theorem places_signature : signature.Places Signature.places := places_signatureOf places_type

theorem places_climbWithin {operand : Parser Expr} (operands : operand.Places Expr.places)
    (depth least : Nat) : (climbWithin operand depth least).Places Expr.places := by
  induction depth generalizing least with
  | zero => exact operands
  | succ depth ih =>
    refine fun before => .bind (operands before) fun first own after known => ?_
    -- what was read so far is the left operand of the next operator
    refine .loop (fun total left => AreSpansIn left.places total) (fun left past before known => ?_) known
    refine .look ?_
    split
    next sign precedence found =>
      refine .ite (fun _ => .pure known) fun _ => ?_
      have same := PlacedToken.lexeme_of_binary found
      refine .advance same (by simp) (.bind (ih _ _) fun right own after follows => .pure ?_)
      exact (known.append [before.current]).joined follows left.mem_places right.mem_places
    next => exact .pure known

theorem places_recovering {parser : Parser Node} (nodes : parser.Places Node.places) :
    (recovering parser).Places (optional Node.places) := by
  refine fun before => .look (.chain (nodes before).attempt fun found own after known => ?_)
  cases found with
  | some parsed => exact .pure (by simpa [optional] using known parsed rfl)
  | none => exact .look (.ite (fun _ => .skip (.pure areSpansIn_nil)) fun _ => .pure areSpansIn_nil)

theorem areSpansIn_recovered {nodes : List Node} {found : Option Node} {past own : List PlacedToken}
    (known : AreSpansIn (Node.placesAll nodes) past) (new : AreSpansIn (optional Node.places found) own) :
    AreSpansIn (Node.placesAll (nodes ++ found.toList)) (past ++ own) := by
  rw [Node.placesAll_eq, List.flatMap_append, ← Node.placesAll_eq]
  exact known.both new

theorem reads_characterDirective_places {before : ParseState}
    (known : before.current.token.lexeme = .directive "char") :
    characterDirective.Reads before [] fun own found => AreSpansIn found.places own := by
  refine .token (.advance known (by simp) (.token ?_))
  split
  next content same =>
    refine .advance same (by simp) ?_
    split
    next character only =>
      exact .pure (areSpansIn_cons.mpr
        ⟨(coveredIn_token before.current).through (coveredIn_token _), areSpansIn_nil⟩)
    next => exact .fail fun _ => trivial
  next => exact .failExpecting _ _

theorem places_block {parser : Parser Node} (nodes : parser.Places Node.places) :
    (block parser).Places Expr.places := by
  refine fun before => .bind (spells_consume (by simp) before) ?_
  rintro opening _ after ⟨first, rfl, rfl, -⟩
  have inside : (loop (blockStep parser first.token) []).Reads after [] fun own result =>
      AreSpansIn (Node.placesAll result.1 ++ [result.2.span]) own := by
    refine .loop (fun total nodes => AreSpansIn (Node.placesAll nodes) total) ?_ areSpansIn_nil
    intro listed past before known
    refine .token ?_
    split
    next same =>
      refine .advance same (by simp) (.pure ?_)
      exact known.both (List.forall_mem_singleton.mpr (coveredIn_token before.current))
    next same => exact .advance same (by simp) (.pure (known.append _))
    next => exact .failUnclosed _
    next =>
      exact .bind (places_recovering nodes before) fun found own after new =>
        .pure (areSpansIn_recovered known new)
  refine .bind inside ?_
  rintro ⟨listed, closing⟩ own after known
  have joined := known.behindToken first (List.mem_append_right _ (List.mem_singleton_self _))
  exact .pure (areSpansIn_cons.mpr ⟨joined _ List.mem_cons_self,
    (areSpansIn_append.mp known).1.prepend [first]⟩)

/-- What the parsers within an expression yield has its places among the tokens that they take. -/
structure IsPlaced (inner : Inner) : Prop where
  expression : inner.expression.Places Expr.places
  operand : inner.operand.Places Expr.places
  node : inner.node.Places fun node => node.span :: node.places

theorem Places.tail {first : α → Span} {parser : Parser α}
    (known : parser.Places fun found => first found :: places found) : parser.Places places :=
  fun before => (known before).mono fun _ _ known => (areSpansIn_cons.mp known).2

/-- An expression that is a single token. -/
theorem reads_literal_places {before : ParseState} {lexeme : Lexeme} {type : Ty} {form : Form}
    (same : before.current.token.lexeme = lexeme) (present : lexeme ≠ .endOfInput)
    (plain : form.places = []) :
    (literal type form).Reads before [] fun own found => AreSpansIn found.places own := by
  refine .token (.advance same present (.pure (areSpansIn_cons.mpr ⟨coveredIn_token before.current, ?_⟩)))
  rw [plain]
  exact areSpansIn_nil

section Within

variable {inner : Inner} (placed : IsPlaced inner)
include placed

theorem places_suffixes {operand : Expr} {past : List PlacedToken} {before : ParseState}
    (known : AreSpansIn operand.places past) :
    (suffixes inner operand).Reads before past fun total found => AreSpansIn found.places total := by
  refine .loop (fun total found => AreSpansIn found.places total) ?_ known
  intro operand past before known
  have front := known.append [before.current]
  refine .token ?_
  split
  next same =>
    refine .advance same (by simp) (.bind (places_type _) fun annotated own after follows => .pure ?_)
    exact front.joined follows operand.mem_places List.mem_cons_self
  next same =>
    refine .advance same (by simp) (.bind (places_commaSeparated (by simp) placed.expression _) ?_)
    rintro ⟨arguments, closing⟩ own after follows
    refine .pure (areSpansIn_cons.mpr ⟨?_, ?_⟩)
    · exact (front _ operand.mem_places).through (follows _ List.mem_cons_self)
    · rw [Form.places, Expr.placesAll_eq]
      exact front.both (areSpansIn_cons.mp follows).2
  next same =>
    refine .advance same (by simp) (.bind (places_consumeIdentifier _) ?_)
    intro field own after follows
    exact .pure (front.joined follows operand.mem_places (List.mem_singleton_self _))
  next => exact .pure known

theorem reads_bracketed_places {before : ParseState}
    (opens : before.current.token.lexeme = .punctuation .openingRoundBracket) :
    (bracketed inner).Reads before [] fun own found => AreSpansIn found.places own := by
  refine .token (.advance opens (by simp) (.bind (placed.expression _) ?_))
  intro parsed own after known
  refine .token (.ite (fun _ => .failUnclosed _) fun _ => .bind (spells_consume (by simp) after) ?_)
  rintro closing _ last ⟨final, rfl, rfl, -⟩
  obtain ⟨info, form⟩ := parsed
  -- the span of the expression is widened to the brackets, and the places in it stay
  have opening := (coveredIn_token before.current).mono (List.prefix_append _ own).isInfix
  refine .pure (areSpansIn_cons.mpr ⟨opening.through (coveredIn_token final), ?_⟩)
  exact ((areSpansIn_cons.mp known).2.prepend [before.current]).append [final]

omit placed in
theorem places_of_isBranching {word : Keyword} {form : Expr → Expr → Option Expr → Form}
    (branching : IsBranching word form) (condition consequent : Expr) (alternative : Option Expr) :
    (form condition consequent alternative).places =
      condition.places ++ (consequent.places ++ Expr.placesOption alternative) := by
  cases branching <;> rfl

theorem reads_branches_places {before : ParseState} {word : Keyword}
    {form : Expr → Expr → Option Expr → Form} (branching : IsBranching word form)
    (same : before.current.token.lexeme = .keyword word) :
    (branches inner form).Reads before [] fun own found => AreSpansIn found.places own := by
  refine .token (.advance same (by simp) (.bind (placed.expression _) ?_))
  intro condition front after first
  refine .bind (placed.expression _) fun consequent middle after second => ?_
  refine .bind (places_led (by simp) placed.expression _) fun otherwise behind after led => ?_
  have opening := (coveredIn_token before.current).mono (List.prefix_append _ front).isInfix
  refine .pure (areSpansIn_cons.mpr ⟨?_, ?_⟩)
  · exact (opening.through (second _ consequent.mem_places)).throughOption
      (areSpansIn_of_optional Expr.mem_places led)
  · rw [places_of_isBranching branching, Expr.placesOption_eq, ← List.append_assoc]
    exact ((first.prepend [before.current]).both second).both led

theorem places_primary : (primary inner).Places Expr.places := by
  -- each branch takes its first token, which is where the places that it adds lie
  refine fun before => .token ?_
  split
  next same => exact reads_literal_places same (by simp) rfl
  next same => exact reads_literal_places same (by simp) rfl
  next same => exact reads_literal_places same (by simp) rfl
  next same => exact reads_literal_places same (by simp) rfl
  next same => exact reads_literal_places same (by simp) rfl
  next same => exact reads_literal_places same (by simp) rfl
  next name same =>
    refine .ite (fun isChar => ?_) fun _ => .failExpecting _ _
    exact reads_characterDirective_places (isChar ▸ same)
  next name same =>
    have own := coveredIn_token before.current
    exact .advance same (by simp) (.pure (areSpansIn_cons.mpr ⟨own, List.forall_mem_singleton.mpr own⟩))
  next same => exact reads_bracketed_places placed same
  next => exact places_block placed.node.tail before
  next same => exact reads_branches_places placed .if_ same
  next same => exact reads_branches_places placed .unless_ same
  next same => exact reads_branches_places placed .while_ same
  next same => exact reads_branches_places placed .until_ same
  next same =>
    refine .advance same (by simp) (.bind (places_type _) fun annotated own after follows => ?_)
    exact .pure (follows.behindToken before.current List.mem_cons_self)
  next same =>
    refine .advance same (by simp) (.bind (placed.expression _) fun operand own after follows => ?_)
    exact .pure (follows.behindToken before.current operand.mem_places)
  next same =>
    refine .advance same (by simp) (.bind (placed.node _) fun node own after follows => ?_)
    obtain ⟨first, others⟩ := areSpansIn_cons.mp (follows.behindToken before.current List.mem_cons_self)
    exact .pure (areSpansIn_cons.mpr ⟨first, (areSpansIn_cons.mp others).2⟩)
  all_goals exact .failExpecting _ _

theorem places_operandOf : (operandOf inner).Places Expr.places := by
  intro before
  have plain : (primary inner >>= suffixes inner).Reads before [] fun own found =>
      AreSpansIn found.places own :=
    .bind (places_primary placed before) fun operand own after known => places_suffixes placed known
  refine .token ?_
  split
  next sign same =>
    refine .ite (fun _ => ?_) fun _ => plain
    refine .advance same (by simp) (.bind (placed.operand _) fun operand own after follows => ?_)
    exact .pure (follows.behindToken before.current operand.mem_places)
  next => exact plain

theorem places_expressionOf : (expressionOf inner).Places Expr.places :=
  places_climbWithin (places_operandOf placed) _ _

omit placed in
theorem places_procedureName (keyword : Token) :
    (procedureName keyword).Places (optional fun binder => [binder.span]) := by
  refine fun before => .token ?_
  have own := coveredIn_token before.current
  split
  next same => exact .advance same (by simp) (.pure (List.forall_mem_singleton.mpr own))
  next same => exact .advance same (by simp) (.pure (List.forall_mem_singleton.mpr own))
  next =>
    refine .report ?_ fun _ => .pure areSpansIn_nil
    trivial
  next =>
    refine .look (.ite (fun _ => ?_) fun _ => .fail fun _ => trivial)
    refine .report ?_ fun after => .skip (.pure areSpansIn_nil)
    trivial

theorem places_procedureBody (keyword : Token) :
    (procedureBody inner keyword).Places Expr.places := by
  refine fun before => .token ?_
  split
  next same =>
    refine .advance same (by simp) ((placed.expression _).behind.mono ?_)
    rintro _ body ⟨own, rfl, known⟩
    exact known.prepend _
  next => exact places_block placed.node.tail before
  next => exact .fail fun _ => trivial

omit placed in
/-- What has no name stands for itself. -/
theorem coveredIn_named {binder : Option Identifier} {span : Span} {tokens : List PlacedToken}
    (whole : CoveredIn (IsSpanOf span) tokens)
    (own : AreSpansIn (optional (fun binder => [binder.span]) binder) tokens) :
    CoveredIn (IsSpanOf (Registration.named binder span).span) tokens := by
  cases binder with
  | none => exact whole
  | some binder => exact own _ List.mem_cons_self

theorem reads_procedure_places {external : Option Token} {past : List PlacedToken}
    {before : ParseState} (marked : IsExternalMark past external) :
    (procedure inner external).Reads before past fun total found => AreSpansIn found.places total := by
  refine .bind (spells_consume (by simp) before) ?_
  rintro keyword _ after ⟨first, rfl, rfl, -⟩
  -- the mark comes first if there is one
  have starts : CoveredIn (IsSpanOf ((external.map Token.span).getD first.token.span))
      (past ++ [first]) := by
    cases external with
    | none => exact (coveredIn_token first).mono (List.suffix_append _ _).isInfix
    | some mark =>
      obtain ⟨placed, rfl, rfl, -⟩ := marked
      exact (coveredIn_token placed).mono (List.prefix_append _ _).isInfix
  refine .bind (places_procedureName _ after) fun binder name after named => ?_
  refine .token (.ite (fun _ => .fail fun _ => trivial) fun _ => ?_)
  refine .bind (places_signature _) fun signature own after signed => ?_
  obtain ⟨wide, parts⟩ := areSpansIn_cons.mp signed
  have named := (named.prepend (past ++ [first])).append own
  have starts := starts.mono (List.prefix_append _ name).isInfix
  have parts := parts.prepend (past ++ [first] ++ name)
  refine .ite (fun isExternal => .pure ?_) fun _ => ?_
  · refine areSpansIn_append.mpr ⟨areSpansIn_cons.mpr ⟨?_, parts⟩, areSpansIn_nil⟩
    exact coveredIn_named (starts.through wide) named
  · refine .bind (places_procedureBody placed _ _) fun body behind after known => .pure ?_
    refine areSpansIn_append.mpr ⟨areSpansIn_cons.mpr ⟨?_, parts.append behind⟩, known.prepend _⟩
    have starts := starts.mono (List.prefix_append _ own).isInfix
    exact coveredIn_named (starts.through (known _ body.mem_places)) (named.append behind)

omit placed in
theorem places_structName (keyword : Token) :
    (structName keyword).Places (optional fun binder => [binder.span]) := by
  refine fun before => .token ?_
  split
  next same =>
    exact .advance same (by simp) (.pure (List.forall_mem_singleton.mpr (coveredIn_token before.current)))
  next =>
    refine .report ?_ fun _ => .pure areSpansIn_nil
    trivial
  next => exact .failExpecting _ _

omit placed in
theorem places_structField : structField.Places Member.places := by
  refine fun before => .bind (places_consumeIdentifier before) fun binder name after named => ?_
  refine .bind (spells_consume (by simp) after) fun _ colon after _ => ?_
  refine .bind (places_type after) fun annotated own after known => ?_
  refine .bind (spells_separator after) fun _ behind after _ => .pure ?_
  exact (((named.append colon).both known).append behind)

omit placed in
theorem places_struct : struct.Places Node.places := by
  refine fun before => .bind (spells_consume (by simp) before) ?_
  rintro _ _ after ⟨keyword, rfl, rfl, -⟩
  refine .bind (places_structName _ after) fun binder name after named => ?_
  refine .bind (spells_consume (by simp) after) fun opening bracket after _ => ?_
  have inside : (loop (fieldStep opening) []).Reads after [] fun own result =>
      AreSpansIn (result.1.flatMap Member.places ++ [result.2.span]) own := by
    refine .loop (fun total fields => AreSpansIn (fields.flatMap Member.places) total) ?_ areSpansIn_nil
    intro fields past before known
    refine .token ?_
    split
    next same =>
      refine .advance same (by simp) (.pure ?_)
      exact known.both (List.forall_mem_singleton.mpr (coveredIn_token before.current))
    next => exact .failUnclosed _
    next =>
      refine .bind (places_structField before) fun field own after new => .pure ?_
      have more := known.both new
      simpa [AfterStep] using more
  refine .bind inside ?_
  rintro ⟨fields, closing⟩ own after known
  obtain ⟨listed, closes⟩ := areSpansIn_append.mp known
  have opens := ((coveredIn_token keyword).mono (List.prefix_append _ name).isInfix).mono
    (List.prefix_append _ bracket).isInfix
  have named := ((named.prepend [keyword]).append bracket).append own
  have whole := opens.through (closes _ (List.mem_singleton_self _))
  exact .pure (areSpansIn_cons.mpr ⟨coveredIn_named whole named, listed.prepend _⟩)

theorem places_initialValue : (initialValue inner).Places Expr.places := by
  refine fun before => .token (.ite (fun same => ?_) fun _ => placed.expression before)
  have same := Token.name_eq_punctuation.mp same
  exact .advance same (by simp) (.pure (List.forall_mem_singleton.mpr (coveredIn_token before.current)))

theorem reads_binding_places {kind : BindingKind} {word : Keyword} {before : ParseState}
    (same : before.current.token.lexeme = .keyword word) :
    (binding inner kind).Reads before [] fun own found => AreSpansIn found.places own := by
  refine .token (.advance same (by simp) (.bind (places_consumeIdentifier _) ?_))
  intro binder name after named
  refine .bind (places_led (by simp) places_type after) fun annotated type after typed => ?_
  refine .bind (places_led (by simp) (places_initialValue placed) after) fun value initial after led => ?_
  refine .pure ?_
  rw [Node.places, Expr.placesOption_eq]
  exact ((named.prepend _).both typed).both led

omit placed in
theorem reads_load_places {before : ParseState}
    (same : before.current.token.lexeme = .directive "load") :
    load.Reads before [] fun own found => AreSpansIn found.places own := by
  refine .token (.advance same (by simp) (.token ?_))
  split
  next path known =>
    refine .advance known (by simp) (.pure (List.forall_mem_singleton.mpr ?_))
    exact (coveredIn_token _).mono (List.suffix_append _ _).isInfix
  next => exact .failExpecting _ _

theorem reads_assignment_places {target : Expr} {applied : Option Operator} {past : List PlacedToken}
    {before : ParseState} (known : AreSpansIn target.places past)
    (present : before.current.token.lexeme ≠ .endOfInput) :
    (assignment inner target applied).Reads before past fun total found =>
      AreSpansIn found.places total := by
  refine .token (.advance rfl present (.bind (placed.expression _) fun value own after follows => ?_))
  refine .ite (fun _ => .pure ((known.append _).both follows)) fun _ => .fail fun ordered => ?_
  -- the error about the target has the span of the target
  obtain ⟨front, inside, isSpan⟩ := known _ target.mem_places
  rw [List.append_assoc] at ordered
  exact ((ordered.of_sublist (List.sublist_append_left past _)).of_sublist inside.sublist).isOrdered isSpan

theorem places_statement : (statement inner).Places Node.places := by
  refine fun before => .bind (places_expressionOf placed before) fun target own after known => ?_
  refine .token ?_
  split
  next same => exact reads_assignment_places placed known (by simp [same])
  next sign same =>
    split
    next applied found => exact reads_assignment_places placed known (by simp [same])
    next => exact .pure known
  next => exact .pure known

theorem places_nodeOf : (nodeOf inner).Places Node.places := by
  refine fun before => .token ?_
  split
  next same =>
    refine .advance same (by simp) (.token (.ite (fun _ => ?_) fun _ => .failExpecting _ _))
    exact reads_procedure_places placed ⟨before.current, rfl, rfl, same⟩
  next => exact reads_procedure_places placed rfl
  next => exact places_struct before
  next same => exact reads_binding_places placed same
  next same => exact reads_binding_places placed same
  next => exact .failExpecting _ _
  next =>
    refine .ite (fun same => reads_load_places same) fun _ => ?_
    exact .ite (fun _ => places_statement placed before) fun _ => .fail fun _ => trivial

end Within

/-- What holds of the tokens that a parser takes holds together. -/
theorem Reads.and {parser : Parser α} {before : ParseState} {past : List PlacedToken}
    {first second : List PlacedToken → α → Prop} (left : parser.Reads before past first)
    (right : parser.Reads before past second) :
    parser.Reads before past fun total result => first total result ∧ second total result := by
  intro ended ordered
  obtain ⟨errors, results⟩ := left ended ordered
  refine ⟨errors, fun result found => ?_⟩
  obtain ⟨own, split, holds⟩ := results result found
  obtain ⟨other, again, also⟩ := (right ended ordered).2 result found
  obtain rfl : own = other := List.append_cancel_right (split.symm.trans again)
  exact ⟨own, split, holds, also⟩

/-- The span of a node is one of a run of tokens as well. -/
theorem Places.withSpan {parser : Parser Node} (known : parser.Places Node.places)
    (spells : parser.Spells fun own found => found.Covers own) :
    parser.Places fun node => node.span :: node.places :=
  fun before => ((spells before).and (known before)).mono fun _ _ both =>
    areSpansIn_cons.mpr ⟨both.1.1.coveredIn, both.2⟩

theorem isPlaced_innerWithin (depth : Nat) : IsPlaced (innerWithin depth) := by
  induction depth with
  | zero => exact ⟨fun _ => .exhaust, fun _ => .exhaust, fun _ => .exhaust⟩
  | succ depth ih =>
    exact ⟨places_expressionOf ih, places_operandOf ih,
      (places_nodeOf ih).withSpan (isSpelled_innerWithin (depth + 1)).node⟩

theorem places_node : node.Places Node.places :=
  fun _ => .look (places_nodeOf (isPlaced_innerWithin _) _)

theorem places_nodes : nodes.Places Node.placesAll := by
  refine fun before => .loop (fun total nodes => AreSpansIn (Node.placesAll nodes) total) ?_ areSpansIn_nil
  intro nodes past before known
  refine .token ?_
  split
  next => exact .pure known
  next same => exact .advance same (by simp) (.pure (known.append _))
  next =>
    exact .bind (places_recovering places_node before) fun found own after new =>
      .pure (areSpansIn_recovered known new)

end Parser

/-- Every place in the trees of a file is that of a run of its tokens. -/
theorem Parsed.areSpansIn_nodes (file : File) :
    AreSpansIn (Node.placesAll (ofFile file).nodes) (inputOf file) := by
  obtain ⟨finish, started, ended, -⟩ := exists_start file
  simp only [ofFile, ofTokens, started]
  obtain ⟨-, results⟩ := Parser.places_nodes (.fresh finish (inputOf file)) ended
    (areOrdered_inputOf file).1
  cases found : (Parser.nodes.run (.fresh finish (inputOf file))).1 with
  | none => exact areSpansIn_nil
  | some nodes =>
    obtain ⟨own, split, known⟩ := results nodes found
    have isPart : own <:+: inputOf file := ⟨[], _, split.symm⟩
    exact AreSpansIn.mono known isPart

end Cadence
