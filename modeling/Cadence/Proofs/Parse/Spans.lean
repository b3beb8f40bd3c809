import Cadence.Proofs.Parse.Reading

/-!
# Spans go from the first token to the last one

One lemma for each parser, in the order of their definitions: what it yields stands for the tokens
that it takes. What nests is given by an induction on how deeply it may nest.
-/
namespace Cadence

open Source (File Span)

section Pieces

variable {span left right : Span} {form : Form} {tokens front behind own : List PlacedToken}

theorem isSpanOf_through (starts : StartsAt left.start front) (ends : EndsAt right.stop behind) :
    IsSpanOf (left.through right) (front ++ behind) :=
  ⟨starts.append behind, ends.append front⟩

/-- A token in front of a part. -/
theorem IsSpanOf.behindToken (placed : PlacedToken) (isSpan : IsSpanOf span own) :
    IsSpanOf (placed.token.span.through span) ([placed] ++ own) :=
  isSpanOf_through (isSpanOf_singleton placed).startsAt isSpan.endsAt

/-- A token in front of what ends with another one. -/
theorem isSpanOf_between (first last : PlacedToken) (inside : List PlacedToken) :
    IsSpanOf (first.token.span.through last.token.span) ([first] ++ (inside ++ [last])) :=
  isSpanOf_through (isSpanOf_singleton first).startsAt
    ((isSpanOf_singleton last).endsAt.append inside)

/-- What may stand at the end ends with the last of its tokens, or has none. -/
def EndsWith (found : Option Span) (tokens : List PlacedToken) : Prop :=
  match found with
  | none => tokens = []
  | some span => EndsAt span.stop tokens

theorem IsSpanOf.throughOption {found : Option Span} (isSpan : IsSpanOf span front)
    (ends : EndsWith found behind) : IsSpanOf (span.throughOption found) (front ++ behind) := by
  cases found with
  | none =>
    obtain rfl : behind = [] := ends
    simpa [Span.throughOption] using isSpan
  | some last => exact isSpanOf_through isSpan.startsAt ends

theorem covers_sign {placed : PlacedToken} {lexeme : Lexeme}
    (same : placed.token.lexeme = lexeme) : (Piece.sign lexeme).covers [placed] :=
  ⟨placed, rfl, same⟩

theorem covers_between {allowed : List PlacedToken → Prop} (permitted : allowed own) :
    (Piece.between allowed).covers own := permitted

theorem Sequence.singleton {piece : Piece} (covers : piece.covers own) : Sequence [piece] own :=
  sequence_singleton.mpr covers

theorem Expr.Covers.of_form (isSpan : IsSpanOf span tokens)
    (sequence : Sequence form.pieces tokens) : (Expr.ofForm span form).Covers tokens :=
  ⟨isSpan, tokens, .plain, sequence⟩

/-- A sign or a word with one part behind it. -/
theorem Expr.Covers.of_led {piece : Piece} {placed : PlacedToken} {lexeme : Lexeme}
    (same : placed.token.lexeme = lexeme) (pieces : form.pieces = [.sign lexeme, piece])
    (isSpan : IsSpanOf span own) (covers : piece.covers own) :
    (Expr.ofForm (placed.token.span.through span) form).Covers ([placed] ++ own) := by
  refine .of_form (isSpan.behindToken placed) ?_
  rw [pieces]
  exact (Sequence.singleton (covers_sign same)).snoc covers

theorem Expr.Covers.of_typed {type : Ty} (isSpan : IsSpanOf span tokens)
    (sequence : Sequence form.pieces tokens) : (Expr.typed span type form).Covers tokens :=
  ⟨isSpan, tokens, .plain, sequence⟩

end Pieces

namespace Parser

section Led

variable {α : Type} {mark : TokenName} {covers : List PlacedToken → α → Prop}
  {own : List PlacedToken} {found : Option α}

theorem IsLed.endsWith (led : IsLed mark covers own found) {spanOf : α → Span}
    (ends : ∀ own found, covers own found → IsSpanOf (spanOf found) own) :
    EndsWith (found.map spanOf) own := by
  cases found with
  | none => exact led
  | some result =>
    obtain ⟨sign, inner, rfl, -, covered⟩ := led
    exact (ends inner result covered).endsAt.append [sign]

theorem IsLed.sequence (led : IsLed mark covers own found) {lexeme : Lexeme}
    (known : ∀ token : Token, token.name = mark → token.lexeme = lexeme) {piece : α → Piece}
    (covered : ∀ own found, covers own found → (piece found).covers own) :
    Sequence (ledPieces lexeme (found.map piece)) own := by
  cases found with
  | none => exact led
  | some result =>
    obtain ⟨sign, inner, rfl, same, holds⟩ := led
    exact (Sequence.singleton (covers_sign (known _ same))).snoc (covered inner result holds)

end Led

theorem reads_pathStep {span : Span} {past : List PlacedToken} {before : ParseState}
    (isSpan : IsSpanOf span past) : (pathStep span).Reads before past
      (AfterStep (fun total span => IsSpanOf span total) fun total found => IsSpanOf found total) := by
  refine .bind (spells_consumeIf (by simp) before) fun found own after taken => ?_
  cases found with
  | false =>
    obtain rfl : own = [] := taken
    exact .pure (by simpa [AfterStep] using isSpan)
  | true =>
    refine .bind (spells_consumeIdentifier after) fun segment name last covers => .pure ?_
    obtain ⟨placed, rfl, -, same⟩ := covers
    exact isSpanOf_through (isSpan.startsAt.append own) (same ▸ (isSpanOf_singleton placed).endsAt)

theorem reads_path {span : Span} {past : List PlacedToken} {before : ParseState}
    (isSpan : IsSpanOf span past) :
    (loop pathStep span).Reads before past fun total found => IsSpanOf found total :=
  .loop (fun total found => IsSpanOf found total) (fun _ _ _ => reads_pathStep) isSpan

theorem spells_qualifiedType : qualifiedType.Spells fun own annotated =>
    IsSpanOf annotated.span own := by
  intro before
  refine .bind (spells_consumeIdentifier before) fun path own after covers => ?_
  obtain ⟨placed, rfl, -, same⟩ := covers
  have whole : IsSpanOf path.span [placed] := same ▸ isSpanOf_singleton placed
  refine .token (.ite (fun _ => ?_) fun _ => .pure whole)
  exact .chain (reads_path whole) fun span total last isSpan =>
    .fail fun ordered => ordered.isOrdered isSpan

/-- What an element of a list of parameters consists of. -/
def Parameter.pieces (piece : Annotation → Piece) : Parameter → List Piece
  | .member member => [.between (IsParameterName member), piece member.type]
  | .varargs _ => [.sign (.punctuation .varargs)]

/-- What is read as the name in front of a type. -/
def IsName (own : List PlacedToken) (found : Option Identifier) : Prop :=
  match found with
  | none => own = []
  | some binder => ∃ name colon, own = [name, colon] ∧
      name.token.lexeme.parameterName? = some binder.value ∧ name.token.span = binder.span ∧
      colon.token.lexeme = .punctuation .colon

theorem ne_endOfInput_of_parameterName? {lexeme : Lexeme} {name : String}
    (named : lexeme.parameterName? = some name) : lexeme ≠ .endOfInput := by
  rintro rfl
  cases named

theorem spells_parameterName? : parameterName?.Spells IsName := by
  refine fun before => .token ?_
  split
  next => exact .pure rfl
  next name named =>
    refine .look (.ite (fun same => ?_) fun _ => .pure rfl)
    have present := ne_endOfInput_of_parameterName? named
    refine .advance rfl present (.advance (Token.name_eq_punctuation.mp same) (by simp) (.pure ?_))
    exact ⟨_, _, rfl, named, rfl, Token.name_eq_punctuation.mp same⟩

section Types

variable {type : Parser Annotation} {piece : Annotation → Piece}
  (types : type.Spells fun own annotated => (piece annotated).covers own)
  (exactly : ∀ own annotated, (piece annotated).covers own → IsSpanOf annotated.span own)
include types

theorem spells_parameter : (parameter type).Spells fun own found =>
    Sequence (Parameter.pieces piece found) own := by
  refine fun before => .token (.ite (fun same => ?_) fun _ => ?_)
  · have same := Token.name_eq_punctuation.mp same
    exact .advance same (by simp) (.pure (.singleton (covers_sign same)))
  · refine .bind (spells_parameterName? before) fun name? front after named => ?_
    refine .bind (types after) fun annotated own last covers => .pure ?_
    refine (Sequence.singleton ?_).snoc covers
    cases name? with
    | none => exact .inl ⟨named, rfl⟩
    | some binder => exact .inr named

omit types in
theorem spells_membersOf (piece : Annotation → Piece) (parameters : List Parameter) :
    (membersOf parameters).Spells fun own result => own = [] ∧
      parameters.map (Parameter.pieces piece) =
        (result.1.map fun parameter =>
            [.between (IsParameterName parameter), piece parameter.type]) ++
          if result.2 then [[.sign (.punctuation .varargs)]] else [] := by
  match parameters with
  | [] => exact fun _ => .pure ⟨rfl, rfl⟩
  | [.varargs _] => exact fun _ => .pure ⟨rfl, rfl⟩
  | .varargs _ :: _ :: _ => exact fun _ => .fail fun _ => trivial
  | .member member :: rest =>
    refine fun before => .bind (spells_membersOf piece rest before) ?_
    rintro ⟨members, isVariadic⟩ own after ⟨rfl, same⟩
    exact .pure ⟨rfl, by simp [Parameter.pieces, same]⟩

include exactly

theorem spells_signatureOf : (signatureOf type).Spells fun own signature =>
    IsSpanOf signature.span own ∧ Sequence
      (signaturePieces piece signature.parameters signature.isVariadic signature.result) own := by
  refine fun before => .bind (spells_consume (by simp) before) ?_
  rintro opening _ after ⟨first, rfl, rfl, same⟩
  have opens := Token.name_eq_punctuation.mp same
  refine .bind (spells_commaSeparated (by simp) (spells_parameter types) after) ?_
  rintro ⟨parameters, closing⟩ _ later ⟨inside, last, rfl, rfl, same, listed⟩
  have closes := Token.name_eq_punctuation.mp same
  refine .bind (spells_membersOf piece parameters later) ?_
  rintro ⟨members, isVariadic⟩ _ later ⟨rfl, known⟩
  refine .bind (spells_led (by simp) types later) fun result own later led => .pure ⟨?_, ?_⟩
  · refine IsSpanOf.throughOption ?_ (led.endsWith exactly)
    simpa using isSpanOf_between first last inside
  · rw [known] at listed
    have whole := ((Sequence.singleton (covers_sign opens)).append listed).snoc (covers_sign closes)
    have behind := led.sequence (fun _ => Token.name_eq_punctuation.mp) fun _ _ => id
    simpa [signaturePieces] using whole.append behind

theorem spells_typeOf : (typeOf type).Spells fun own annotated =>
    IsSpanOf annotated.span own := by
  refine fun before => .token ?_
  split
  next same =>
    refine .advance same (by simp) (.bind (types _) fun target own after covers => .pure ?_)
    exact (exactly own target covers).behindToken before.current
  next same => exact .advance same (by simp) (.pure (isSpanOf_singleton before.current))
  next => exact spells_qualifiedType before
  next =>
    refine .bind (spells_signatureOf types exactly before) fun signature own after covers => ?_
    exact .pure covers.1
  next => exact .failExpecting _ _

end Types

theorem spells_typeWithin (depth : Nat) : (typeWithin depth).Spells fun own annotated =>
    IsSpanOf annotated.span own := by
  induction depth with
  | zero => exact fun _ => .exhaust
  | succ depth ih =>
    -- the inner types count by their spans alone, which is all that the induction gives
    let piece (annotated : Annotation) : Piece := ⟨annotated.span, IsSpanOf annotated.span⟩
    have types : (typeWithin depth).Spells fun own annotated => (piece annotated).covers own := ih
    exact spells_typeOf types fun _ _ => id

theorem spells_type : type.Spells fun own annotated => annotated.piece.covers own := by
  intro before ended ordered
  -- that it was parsed from its tokens is what the run itself says
  obtain ⟨errors, results⟩ := spells_typeWithin (before.ahead.length + 1) before ended ordered
  refine ⟨errors, fun annotated found => ?_⟩
  obtain ⟨own, split, isSpan⟩ := results annotated found
  exact ⟨own, split, isSpan, before, _, Prod.ext found rfl, split⟩

theorem spells_signature : signature.Spells fun own signature =>
    IsSpanOf signature.span own ∧ Sequence (signaturePieces Annotation.piece signature.parameters
      signature.isVariadic signature.result) own :=
  spells_signatureOf spells_type fun _ _ covers => covers.isSpanOf

theorem PlacedToken.lexeme_of_binary {placed : PlacedToken} {sign : Spanned Operator}
    {precedence : Nat} (found : placed.binary? = some (sign, precedence)) :
    placed.token.lexeme = .operator sign.value := by
  rw [PlacedToken.binary?] at found
  split at found
  next operator same =>
    split at found
    next =>
      split at found
      · obtain ⟨rfl, -⟩ := Prod.mk.inj (Option.some.inj found)
        exact same
      · cases found
    next => cases found
  next => cases found

/-- An expression goes on to the right of an operator. -/
theorem covers_binary {left right : Expr} {sign : Spanned Operator} {placed : PlacedToken}
    {front own : List PlacedToken} (first : left.Covers front)
    (same : placed.token.lexeme = .operator sign.value) (second : right.Covers own) :
    (Expr.ofForm (left.span.through right.span) (.binary left sign right)).Covers
      (front ++ [placed] ++ own) := by
  refine .of_form (isSpanOf_through (first.1.startsAt.append _) second.1.endsAt) ?_
  exact ((Sequence.singleton first).snoc (covers_sign same)).snoc second

/-- What was read so far is the left operand of the next operator. -/
theorem reads_climbStep {climbed : Nat → Parser Expr}
    (operands : ∀ precedence, (climbed precedence).Spells fun own found => found.Covers own)
    (least : Nat) {left : Expr} {past : List PlacedToken} {before : ParseState}
    (covers : left.Covers past) : (climbStep climbed least left).Reads before past
      (AfterStep (fun total left => left.Covers total) fun total found => found.Covers total) := by
  refine .look ?_
  split
  next sign precedence found =>
    refine .ite (fun _ => .pure covers) fun _ => ?_
    have same := PlacedToken.lexeme_of_binary found
    refine .advance same (by simp) (.bind (operands _ _) fun right own after follows => .pure ?_)
    exact covers_binary covers same follows
  next => exact .pure covers

theorem spells_climbWithin {operand : Parser Expr}
    (operands : operand.Spells fun own found => found.Covers own) (depth least : Nat) :
    (climbWithin operand depth least).Spells fun own found => found.Covers own := by
  induction depth generalizing least with
  | zero => exact operands
  | succ depth ih =>
    exact fun before => .bind (operands before) fun first own after covers =>
      .loop (fun total left => left.Covers total) (fun _ _ _ => reads_climbStep ih least) covers

/-- What is read where a node may be missing because it could not be parsed. -/
def IsRecovered (own : List PlacedToken) : Option Node → Prop
  | some found => found.Covers own
  | none => IsFailure own

theorem spells_recovering {parser : Parser Node}
    (known : parser = Parser.node ∨ ∃ depth, parser = (innerWithin depth).node)
    (nodes : parser.Spells fun own found => found.Covers own) :
    (recovering parser).Spells IsRecovered := by
  -- a node that was found stands for its tokens; that the others are a failure is the run itself
  have whole : (recovering parser).Spells fun own found => ∀ node ∈ found, node.Covers own := by
    refine fun before => .look (.chain (nodes before).attempt fun found own after covers => ?_)
    cases found with
    | some parsed => exact .pure covers
    | none => exact .look (.ite (fun _ => .skip (.pure nofun)) fun _ => .pure nofun)
  intro before ended ordered
  obtain ⟨errors, results⟩ := whole before ended ordered
  refine ⟨errors, fun result found => ?_⟩
  obtain ⟨own, split, covers⟩ := results result found
  refine ⟨own, split, ?_⟩
  cases result with
  | some node => exact covers node rfl
  | none => exact ⟨parser, before, _, known, Prod.ext found rfl, split⟩

/-- Nodes so far, and the one behind them unless it could not be parsed. -/
theorem coverAll_recovered {nodes : List Node} {found : Option Node} {past own : List PlacedToken}
    (cover : Node.CoverAll nodes past) (recovered : IsRecovered own found) :
    Node.CoverAll (nodes ++ found.toList) (past ++ own) := by
  cases found with
  | none =>
    rw [Option.toList_none, List.append_nil]
    exact Sequence.scattered_extend cover fun _ skipped => .failure skipped recovered
  | some node =>
    have more := Sequence.scattered_snoc cover (.singleton recovered) IsSkipped.nil
    simpa [Node.CoverAll, Node.groups_eq] using more

theorem coverAll_semicolon {nodes : List Node} {past : List PlacedToken} {placed : PlacedToken}
    (cover : Node.CoverAll nodes past)
    (same : placed.token.lexeme = .punctuation .semicolon) :
    Node.CoverAll nodes (past ++ [placed]) :=
  Sequence.scattered_extend cover fun _ skipped => .semicolon skipped same

theorem coverAll_nil : Node.CoverAll [] [] := Sequence.scattered_nil .nil

theorem reads_characterDirective {before : ParseState}
    (known : before.current.token.lexeme = .directive "char") :
    characterDirective.Reads before [] fun own found => found.Covers own := by
  refine .token (.advance known (by simp) (.token ?_))
  split
  next content same =>
    refine .advance same (by simp) ?_
    split
    next character only =>
      refine .pure (.of_typed ?_ (.singleton (.inr ?_)))
      · exact (isSpanOf_singleton _).behindToken before.current
      · rw [← only, String.ofList_toList]
        exact (Sequence.singleton (covers_sign known)).snoc (covers_sign same)
    next => exact .fail fun _ => trivial
  next => exact .failExpecting _ _

theorem spells_block {parser : Parser Node} (recovers : (recovering parser).Spells IsRecovered) :
    (block parser).Spells fun own found => found.Covers own := by
  refine fun before => .bind (spells_consume (by simp) before) ?_
  rintro opening _ after ⟨first, rfl, rfl, same⟩
  have opens := Token.name_eq_punctuation.mp same
  -- the nodes so far stand for the tokens behind the opening bracket
  have inside : (loop (blockStep parser first.token) []).Reads after [] fun own result =>
      ∃ (inside : List PlacedToken) (last : PlacedToken), own = inside ++ [last] ∧
        last.token = result.2 ∧ last.token.lexeme = .punctuation .closingCurlyBracket ∧
        Node.CoverAll result.1 inside := by
    refine .loop (fun total nodes => Node.CoverAll nodes total) ?_ coverAll_nil
    intro nodes past before cover
    refine .token ?_
    split
    next same => exact .advance same (by simp) (.pure ⟨past, _, rfl, rfl, same, cover⟩)
    next same => exact .advance same (by simp) (.pure (coverAll_semicolon cover same))
    next => exact .failUnclosed _
    next =>
      exact .bind (recovers before) fun found own after recovered =>
        .pure (coverAll_recovered cover recovered)
  refine .bind inside ?_
  rintro ⟨nodes, closing⟩ _ after ⟨inside, last, rfl, rfl, closes, cover⟩
  refine .pure (.of_form ?_ ?_)
  · exact isSpanOf_between first last inside
  · have whole := ((Sequence.singleton (covers_sign opens)).append cover).snoc (covers_sign closes)
    simpa [Form.pieces] using whole

/-- What the parsers within an expression yield stands for the tokens that they take. -/
structure IsSpelled (inner : Inner) : Prop where
  expression : inner.expression.Spells fun own found => found.Covers own
  operand : inner.operand.Spells fun own found => found.Covers own
  node : inner.node.Spells fun own found => found.Covers own
  recovering : (recovering inner.node).Spells IsRecovered

/-- An expression that is a single token. -/
theorem reads_literal {before : ParseState} {lexeme : Lexeme} {type : Ty} {form : Form}
    (same : before.current.token.lexeme = lexeme) (present : lexeme ≠ .endOfInput)
    (covers : Sequence form.pieces [before.current]) :
    (literal type form).Reads before [] fun own found => found.Covers own :=
  .token (.advance same present (.pure (.of_typed (isSpanOf_singleton before.current) covers)))

section Within

variable {inner : Inner} (known : IsSpelled inner)
include known

/-- What was read so far is the operand of the next suffix. -/
theorem reads_suffixStep {operand : Expr} {past : List PlacedToken} {before : ParseState}
    (covers : operand.Covers past) : (suffixStep inner operand).Reads before past
      (AfterStep (fun total found => found.Covers total) fun total found => found.Covers total) := by
  refine .token ?_
  -- whatever the suffix, what was read before covers the operand and comes first
  split
  next same =>
    refine .advance same (by simp) (.bind (spells_type _) fun annotated own after follows => ?_)
    refine .pure (.of_typed ?_ (((Sequence.singleton covers).snoc (covers_sign same)).snoc follows))
    exact isSpanOf_through (covers.1.startsAt.append _) follows.isSpanOf.endsAt
  next same =>
    have elements : inner.expression.Spells fun own found =>
        Sequence [.expression found.span found.pieces] own :=
      fun before => (known.expression before).mono fun own found => .singleton
    refine .advance same (by simp) (.bind (spells_commaSeparated (by simp) elements _) ?_)
    rintro ⟨arguments, closing⟩ _ after ⟨inside, last, rfl, rfl, closes, listed⟩
    have closes := Token.name_eq_punctuation.mp closes
    refine .pure (.of_form ?_ ?_)
    · exact isSpanOf_through (covers.1.startsAt.append _)
        ((isSpanOf_singleton last).endsAt.append inside)
    · have whole := (((Sequence.singleton covers).snoc (covers_sign same)).append listed).snoc
        (covers_sign closes)
      simpa [Form.pieces, Expr.groups_eq] using whole
  next same =>
    refine .advance same (by simp) (.bind (spells_consumeIdentifier _) ?_)
    rintro field _ after ⟨placed, rfl, named, place⟩
    refine .pure (.of_form ?_ ?_)
    · exact isSpanOf_through (covers.1.startsAt.append _)
        (place ▸ (isSpanOf_singleton placed).endsAt)
    · exact ((Sequence.singleton covers).snoc (covers_sign same)).snoc ⟨placed, rfl, named, place⟩
  next => exact .pure covers

theorem spells_suffixes {operand : Expr} {past : List PlacedToken} {before : ParseState}
    (covers : operand.Covers past) :
    (suffixes inner operand).Reads before past fun total found => found.Covers total :=
  .loop (fun total found => found.Covers total) (fun _ _ _ => reads_suffixStep known) covers

theorem reads_bracketed {before : ParseState}
    (opens : before.current.token.lexeme = .punctuation .openingRoundBracket) :
    (bracketed inner).Reads before [] fun own found => found.Covers own := by
  refine .token (.advance opens (by simp) (.bind (known.expression _) ?_))
  intro parsed own after covers
  refine .token (.ite (fun _ => .failUnclosed _) fun _ => .bind (spells_consume (by simp) after) ?_)
  rintro closing _ last ⟨placed, rfl, rfl, same⟩
  have closes := Token.name_eq_punctuation.mp same
  -- the brackets widen the span of the expression, and its parts stay where they are
  obtain ⟨info, form⟩ := parsed
  obtain ⟨-, inside, within, sequence⟩ := covers
  refine .pure ⟨?_, inside, .brackets opens within closes, sequence⟩
  exact isSpanOf_through ((isSpanOf_singleton before.current).startsAt.append own)
    (isSpanOf_singleton placed).endsAt

omit known in
theorem ledPieces_eq (mark : Lexeme) (found : Option Expr) :
    Expr.ledPieces mark found =
      Cadence.ledPieces mark (found.map fun inner => .expression inner.span inner.pieces) := by
  cases found <;> rfl

omit known in
theorem pieces_of_isBranching {word : Keyword} {form : Expr → Expr → Option Expr → Form}
    (branching : IsBranching word form) (condition consequent : Expr) (alternative : Option Expr) :
    (form condition consequent alternative).pieces =
      [.sign (.keyword word), .expression condition.span condition.pieces,
        .expression consequent.span consequent.pieces] ++
        Expr.ledPieces (.keyword .else_) alternative := by
  cases branching <;> simp [Form.pieces]

theorem reads_branches {before : ParseState} {word : Keyword}
    {form : Expr → Expr → Option Expr → Form} (branching : IsBranching word form)
    (same : before.current.token.lexeme = .keyword word) :
    (branches inner form).Reads before [] fun own found => found.Covers own := by
  refine .token (.advance same (by simp) (.bind (known.expression _) ?_))
  intro condition front after first
  refine .bind (known.expression _) fun consequent middle after second => ?_
  refine .bind (spells_led (by simp) known.expression _) fun otherwise behind after led => ?_
  refine .pure (.of_form ?_ ?_)
  · refine IsSpanOf.throughOption ?_ (led.endsWith fun _ _ covers => covers.1)
    exact isSpanOf_through ((isSpanOf_singleton before.current).startsAt.append front)
      second.1.endsAt
  · have whole := ((Sequence.singleton (covers_sign same)).snoc first).snoc second
    rw [pieces_of_isBranching branching, ledPieces_eq]
    exact whole.append (led.sequence (fun _ => Token.name_eq_keyword.mp) fun _ _ => id)

theorem spells_primary : (primary inner).Spells fun own found => found.Covers own := by
  refine fun before => .token ?_
  -- a literal is spelled by the token that it was made of
  have literal {lexeme : Lexeme} {type : Ty} {form : Form}
      (same : before.current.token.lexeme = lexeme) (isLiteral : IsLiteral lexeme type form) :
      (Parser.literal type form).Reads before [] fun own found => found.Covers own := by
    have found := same.symm ▸ isLiteral
    refine reads_literal same (by rintro rfl; cases isLiteral) ?_
    cases isLiteral
    case character => exact .singleton (.inl (.singleton (covers_sign same)))
    all_goals exact .singleton ⟨before.current, rfl, _, found⟩
  split
  next same => exact literal same .true_
  next same => exact literal same .false_
  next same => exact literal same .integer
  next same => exact literal same .real
  next same => exact literal same .text
  next same => exact literal same .character
  next name same =>
    refine .ite (fun isChar => ?_) fun _ => .failExpecting _ _
    exact reads_characterDirective (isChar ▸ same)
  next name same =>
    refine .advance same (by simp) (.pure (.of_form (isSpanOf_singleton before.current) ?_))
    exact .singleton ⟨before.current, rfl, same, rfl⟩
  next same => exact reads_bracketed known same
  next => exact spells_block known.recovering before
  next same => exact reads_branches known .if_ same
  next same => exact reads_branches known .unless_ same
  next same => exact reads_branches known .while_ same
  next same => exact reads_branches known .until_ same
  next same =>
    refine .advance same (by simp) (.bind (spells_type _) fun annotated own after follows => ?_)
    exact .pure (.of_typed (follows.isSpanOf.behindToken before.current)
      ((Sequence.singleton (covers_sign same)).snoc follows))
  next same =>
    refine .advance same (by simp) (.bind (known.expression _) fun operand own after follows => ?_)
    exact .pure (.of_led same rfl follows.1 follows)
  next same =>
    refine .advance same (by simp) (.bind (known.node _) fun node own after follows => ?_)
    exact .pure (.of_led same rfl follows.1 follows)
  all_goals exact .failExpecting _ _

theorem spells_operandOf : (operandOf inner).Spells fun own found => found.Covers own := by
  intro before
  have plain : (primary inner >>= suffixes inner).Reads before [] fun own found =>
      found.Covers own :=
    .bind (spells_primary known before) fun operand own after covers => spells_suffixes known covers
  refine .token ?_
  split
  next sign same =>
    refine .ite (fun _ => ?_) fun _ => plain
    refine .advance same (by simp) (.bind (known.operand _) fun operand own after follows => ?_)
    exact .pure (.of_led same rfl follows.1 follows)
  next => exact plain

theorem spells_expressionOf : (expressionOf inner).Spells fun own found => found.Covers own :=
  spells_climbWithin (spells_operandOf known) _ _

omit known in
theorem spells_procedureName (keyword : Token) :
    (procedureName keyword).Spells fun own _ => IsOptional (fun _ => True) own := by
  refine fun before => .token ?_
  split
  next same => exact .advance same (by simp) (.pure (isOptional_singleton trivial))
  next same => exact .advance same (by simp) (.pure (isOptional_singleton trivial))
  next =>
    refine .report ?_ fun _ => .pure (isOptional_nil _)
    trivial
  next =>
    refine .look (.ite (fun _ => ?_) fun _ => .fail fun _ => trivial)
    refine .report ?_ fun after => .skip (.pure (isOptional_take _))
    trivial

theorem spells_procedureBody (keyword : Token) :
    (procedureBody inner keyword).Spells fun own body =>
      EndsAt body.span.stop own ∧ Sequence (Expr.bodyPieces (some body)) own := by
  refine fun before => .token ?_
  split
  next same =>
    refine .advance same (by simp) ((known.expression _).behind.mono ?_)
    rintro _ body ⟨own, rfl, covers⟩
    refine ⟨covers.1.endsAt.append _, ?_⟩
    exact (Sequence.singleton (covers_between (isOptional_singleton same))).snoc covers
  next =>
    refine (spells_block known.recovering before).mono fun own body covers => ⟨covers.1.endsAt, ?_⟩
    exact (Sequence.singleton (covers_between (isOptional_nil _))).snoc covers
  next => exact .fail fun _ => trivial

/-- What is read as the mark that a procedure is defined elsewhere. -/
def IsExternalMark (own : List PlacedToken) : Option Token → Prop
  | none => own = []
  | some mark => ∃ placed, own = [placed] ∧ placed.token = mark ∧
      mark.lexeme = .keyword .external

theorem reads_procedure {external : Option Token} {past : List PlacedToken} {before : ParseState}
    (marked : IsExternalMark past external) :
    (procedure inner external).Reads before past fun total found => found.Covers total := by
  refine .bind (spells_consume (by simp) before) ?_
  rintro keyword _ after ⟨first, rfl, rfl, same⟩
  have procs := Token.name_eq_keyword.mp same
  -- the mark comes first if there is one
  have starts : StartsAt ((external.map Token.span).getD first.token.span).start
      (past ++ [first]) := by
    cases external with
    | none =>
      obtain rfl : past = [] := marked
      exact (isSpanOf_singleton first).startsAt
    | some mark =>
      obtain ⟨placed, rfl, rfl, -⟩ := marked
      exact (isSpanOf_singleton placed).startsAt.append _
  have front : Sequence (externalPieces external.isSome ++ [.sign (.keyword .proc)])
      (past ++ [first]) := by
    refine Sequence.snoc ?_ (covers_sign procs)
    cases external with
    | none => exact marked
    | some mark =>
      obtain ⟨placed, rfl, rfl, same⟩ := marked
      exact .singleton (covers_sign same)
  refine .bind (spells_procedureName _ after) fun binder name after named => ?_
  refine .token (.ite (fun _ => .fail fun _ => trivial) fun _ => ?_)
  refine .bind (spells_signature _) ?_
  rintro signature own after ⟨isSpan, sequence⟩
  have head : Sequence (signature.head binder external.isSome).pieces
      (past ++ [first] ++ name ++ own) := by
    have whole := (front.snoc (covers_between named)).append sequence
    simpa [ProcedureHead.pieces, Signature.head] using whole
  refine .ite (fun isExternal => .pure ⟨?_, ?_⟩) fun _ => ?_
  · exact isSpanOf_through (starts.append name) isSpan.endsAt
  · simpa [Node.pieces, Expr.bodyPieces] using head
  · refine .bind (spells_procedureBody known _ _) ?_
    rintro body behind after ⟨ends, sequence⟩
    refine .pure ⟨?_, head.append sequence⟩
    exact isSpanOf_through ((starts.append name).append own) ends

omit known in
theorem spells_structName (keyword : Token) :
    (structName keyword).Spells fun own _ => IsOptional (fun _ => True) own := by
  refine fun before => .token ?_
  split
  next same => exact .advance same (by simp) (.pure (isOptional_singleton trivial))
  next =>
    refine .report ?_ fun _ => .pure (isOptional_nil _)
    trivial
  next => exact .failExpecting _ _

omit known in
theorem spells_separator : separator.Spells fun own _ => IsOptional IsSeparator own := by
  refine fun before => .bind (spells_consumeIf (by simp) before) fun found own after taken => ?_
  cases found with
  | true =>
    obtain ⟨placed, rfl, same⟩ := taken
    exact .pure (isOptional_singleton (.inl (Token.name_eq_punctuation.mp same)))
  | false =>
    obtain rfl : own = [] := taken
    refine .bind (spells_consumeIf (by simp) after) fun found own after taken => .pure ?_
    cases found with
    | true =>
      obtain ⟨placed, rfl, same⟩ := taken
      exact isOptional_singleton (.inr (Token.name_eq_punctuation.mp same))
    | false =>
      obtain rfl : own = [] := taken
      exact isOptional_nil _

omit known in
theorem spells_structField : structField.Spells fun own field =>
    ∃ front behind, own = front ++ behind ∧ Sequence field.fieldPieces front ∧
      IsOptional IsSeparator behind := by
  refine fun before => .bind (spells_consumeIdentifier before) fun binder name after named => ?_
  refine .bind (spells_consume (by simp) after) ?_
  rintro _ _ after ⟨colon, rfl, rfl, same⟩
  have colons := Token.name_eq_punctuation.mp same
  refine .bind (spells_type after) fun annotated own after covers => ?_
  refine .bind (spells_separator after) fun _ behind after separated => .pure ?_
  refine ⟨_, behind, rfl, ?_, separated⟩
  exact ((Sequence.singleton named).snoc (covers_sign colons)).snoc covers

omit known in
theorem spells_struct : struct.Spells fun own found => found.Covers own := by
  refine fun before => .bind (spells_consume (by simp) before) ?_
  rintro _ _ after ⟨keyword, rfl, rfl, same⟩
  have structs := Token.name_eq_keyword.mp same
  refine .bind (spells_structName _ after) fun binder name after named => ?_
  refine .bind (spells_consume (by simp) after) ?_
  rintro _ _ after ⟨opening, rfl, rfl, same⟩
  have opens := Token.name_eq_punctuation.mp same
  -- the loop keeps that the fields so far cover what it has read
  have inside : (loop (fieldStep opening.token) []).Reads after [] fun own result =>
      ∃ (inside : List PlacedToken) (last : PlacedToken), own = inside ++ [last] ∧
        last.token = result.2 ∧ last.token.lexeme = .punctuation .closingCurlyBracket ∧
        Sequence (scattered (IsOptional IsSeparator) (result.1.map Member.fieldPieces)) inside := by
    refine .loop (fun total fields => Sequence
      (scattered (IsOptional IsSeparator) (fields.map Member.fieldPieces)) total) ?_
      (Sequence.scattered_nil (isOptional_nil _))
    intro fields past before sequence
    refine .token ?_
    split
    next same => exact .advance same (by simp) (.pure ⟨past, _, rfl, rfl, same, sequence⟩)
    next => exact .failUnclosed _
    next =>
      refine .bind (spells_structField before) ?_
      rintro field _ after ⟨front, behind, rfl, covers, separated⟩
      have more := sequence.scattered_snoc covers separated
      exact .pure (by simpa [AfterStep] using more)
  refine .bind inside ?_
  rintro ⟨fields, closing⟩ _ after ⟨inside, last, rfl, rfl, closes, listed⟩
  refine .pure ⟨?_, ?_⟩
  · exact isSpanOf_through (((isSpanOf_singleton keyword).startsAt.append name).append _)
      ((isSpanOf_singleton last).endsAt.append inside)
  · have front := (Sequence.singleton (covers_sign structs)).snoc (covers_between named)
    have whole := ((front.snoc (covers_sign opens)).append listed).snoc (covers_sign closes)
    simpa [Node.pieces, Struct.pieces] using whole

theorem spells_initialValue : (initialValue inner).Spells fun own found => found.Covers own := by
  refine fun before => .token (.ite (fun same => ?_) fun _ => known.expression before)
  have same := Token.name_eq_punctuation.mp same
  refine .advance same (by simp) (.pure (.of_form (isSpanOf_singleton before.current) ?_))
  exact .singleton (covers_sign same)

theorem reads_binding {kind : BindingKind} {word : Keyword} {before : ParseState}
    (same : before.current.token.lexeme = .keyword word) (isBinding : IsBinding word kind) :
    (binding inner kind).Reads before [] fun own found => found.Covers own := by
  refine .token (.advance same (by simp) (.bind (spells_consumeIdentifier _) ?_))
  rintro binder name after named
  refine .bind (spells_led (by simp) spells_type after) fun annotated type after ledType => ?_
  refine .bind (spells_led (by simp) (spells_initialValue known) after) ?_
  intro value initial after ledValue
  refine .pure ⟨?_, ?_⟩
  · obtain ⟨placed, rfl, -, place⟩ := named
    have front := (place ▸ isSpanOf_singleton placed).behindToken before.current
    have typed := front.throughOption (ledType.endsWith fun _ _ covers => covers.isSpanOf)
    exact typed.throughOption (ledValue.endsWith fun _ _ covers => covers.1)
  · have begins : (Piece.one fun lexeme => ∃ word, lexeme = .keyword word ∧
        IsBinding word kind).covers [before.current] :=
      ⟨before.current, rfl, word, same, isBinding⟩
    have front := (Sequence.singleton begins).snoc named
    have types := ledType.sequence (fun _ => Token.name_eq_punctuation.mp) fun _ _ => id
    have values := ledValue.sequence (fun _ => Token.name_eq_punctuation.mp) fun _ _ => id
    rw [Node.pieces, ledPieces_eq]
    exact (front.append types).append values

omit known in
theorem reads_load {before : ParseState}
    (same : before.current.token.lexeme = .directive "load") :
    load.Reads before [] fun own found => found.Covers own := by
  refine .token (.advance same (by simp) (.token ?_))
  split
  next path known =>
    refine .advance known (by simp) (.pure ⟨?_, ?_⟩)
    · exact (isSpanOf_singleton _).behindToken before.current
    · exact (Sequence.singleton (covers_sign same)).snoc (covers_sign known)
  next => exact .failExpecting _ _

theorem reads_assignment {target : Expr} {applied : Option Operator} {past : List PlacedToken}
    {before : ParseState} (covers : target.Covers past)
    (assigns : IsAssignment before.current.token.lexeme applied) :
    (assignment inner target applied).Reads before past fun total found => found.Covers total := by
  refine .token (.advance rfl ?_ (.bind (known.expression _) fun value own after follows => ?_))
  · intro ends
    rw [ends] at assigns
    cases assigns
  refine .ite (fun _ => .pure ⟨?_, ?_⟩) fun _ => .fail fun ordered => ?_
  · exact isSpanOf_through (covers.1.startsAt.append _) follows.1.endsAt
  · have sign : (Piece.one (IsAssignment · applied)).covers [before.current] :=
      ⟨before.current, rfl, assigns⟩
    have same (span : Span) : (applied.map (Spanned.mk · span)).map Spanned.value = applied := by
      cases applied <;> rfl
    rw [Node.pieces, same]
    exact ((Sequence.singleton covers).snoc sign).snoc follows
  -- the error about the target has the span of the target
  · rw [List.append_assoc] at ordered
    exact (ordered.of_sublist (List.sublist_append_left past _)).isOrdered covers.1

theorem spells_statement : (statement inner).Spells fun own found => found.Covers own := by
  refine fun before => .bind (spells_expressionOf known before) fun target own after covers => ?_
  have plain : Node.Covers (.expression target) own := ⟨covers.1, .singleton covers⟩
  refine .token ?_
  split
  next same => exact reads_assignment known covers (same ▸ .plain)
  next sign same =>
    split
    next applied found => exact reads_assignment known covers (same ▸ .compound found)
    next => exact .pure plain
  next => exact .pure plain

theorem spells_nodeOf : (nodeOf inner).Spells fun own found => found.Covers own := by
  refine fun before => .token ?_
  split
  next same =>
    refine .advance same (by simp) (.token (.ite (fun _ => ?_) fun _ => .failExpecting _ _))
    exact reads_procedure known ⟨before.current, rfl, rfl, same⟩
  next => exact reads_procedure known rfl
  next => exact spells_struct before
  next same => exact reads_binding known same .let_
  next same => exact reads_binding known same .var
  next => exact .failExpecting _ _
  next =>
    refine .ite (fun same => reads_load same) fun _ => ?_
    exact .ite (fun _ => spells_statement known before) fun _ => .fail fun _ => trivial

end Within

theorem isSpelled_innerWithin (depth : Nat) : IsSpelled (innerWithin depth) := by
  induction depth with
  | zero =>
    exact ⟨fun _ => .exhaust, fun _ => .exhaust, fun _ => .exhaust,
      spells_recovering (.inr ⟨0, rfl⟩) fun _ => .exhaust⟩
  | succ depth ih =>
    exact ⟨spells_expressionOf ih, spells_operandOf ih, spells_nodeOf ih,
      spells_recovering (.inr ⟨depth + 1, rfl⟩) (spells_nodeOf ih)⟩

theorem spells_node : node.Spells fun own found => found.Covers own :=
  fun _ => .look (spells_nodeOf (isSpelled_innerWithin _) _)

theorem spells_nodes : nodes.Spells fun own found => Node.CoverAll found own := by
  refine fun before => .loop (fun total nodes => Node.CoverAll nodes total) ?_ coverAll_nil
  intro nodes past before cover
  refine .token ?_
  split
  next => exact .pure cover
  next same => exact .advance same (by simp) (.pure (coverAll_semicolon cover same))
  next =>
    exact .bind (spells_recovering (.inl rfl) spells_node before) fun found own after recovered =>
      .pure (coverAll_recovered cover recovered)

end Parser

end Cadence
