import Cadence.Parse.File
import Cadence.Proofs.Parse.Recognition
import Cadence.Proofs.Parse.Reporting

/-!
# No parser reports anything twice

There is one lemma for each parser, in the order of their definitions. Types are read up to the first
report, so that a parser for types that succeeds has reported nothing. Expressions and nodes go on
behind a report within a block only, and each report there is about a token that the block has
passed. What is left is the current token: a node that starts with it is refused before it is taken,
and the one who retries there refuses it again. This happens behind a `defer` and nowhere else.
-/
namespace Cadence

open Source (Span)

namespace Parser

open ParseState (Follows Passes Since)

variable {α β : Type} {tokens : List Token} {quiet : Prop} {low : Nat} {before : ParseState}

/-- Wherever the parser starts, no two reports up to its end are the same. -/
def AddsNew (parser : Parser α) (tokens : List Token) : Prop :=
  ∀ ⦃quiet : Prop⦄ ⦃low : Nat⦄ ⦃before : ParseState⦄, Starts tokens low before →
    parser.Adds tokens quiet low before fun _ _ => True

section Types

/-- The start of a path stays where it is while segments are added. -/
theorem adds_path (starts : Starts tokens low before) (span : Span) :
    (loop pathStep span).Adds tokens quiet low before fun path _ => path.start = span.start := by
  refine .loop starts (fun path _ => path.start = span.start) (fun path state starts _ same => ?_) rfl
  refine (adds_consumeIf starts _).bind starts.opens fun isDot after starts _ _ => ?_
  refine .ite (fun _ => ?_) fun _ => .pure starts same
  exact (adds_consumeIdentifier starts).bind starts.opens fun _ _ starts _ _ => .pure starts same

theorem adds_qualifiedType : qualifiedType.AddsNew tokens := by
  intro quiet low before starts
  refine (adds_consumeIdentifier starts).bind starts.opens fun path after afterStarts _ taken => ?_
  obtain ⟨sameSpan, passes⟩ := taken
  refine .token (.ite (fun _ => ?_) fun _ => .pure afterStarts trivial)
  -- nothing is reported while the path is read
  refine (adds_path afterStarts path.span).quietly.bind afterStarts.opens
    fun span last lastStarts follows same => ?_
  obtain ⟨silent, sameStart⟩ := same
  have here : (ParseError.qualifiedPath span).site = before.site :=
    sameStart.trans (congrArg Span.start sameSpan)
  refine .fail lastStarts.opens (here ▸ starts.le) ?_
  rw [here]
  exact follows.spares afterStarts.settled.stands (passes.spares "unsupported path" (by decide))

theorem adds_parameterName? (starts : Starts tokens low before) :
    parameterName?.Adds tokens quiet low before fun _ _ => True := by
  apply Adds.token
  split
  next => exact .pure starts trivial
  next =>
    refine .look (.ite (fun _ => ?_) fun _ => .pure starts trivial)
    exact (Adds.skip starts).bind starts.opens fun _ _ starts _ _ =>
      (Adds.skip starts).bind starts.opens fun _ _ starts _ _ => .pure starts trivial

/-- If the parameter is the mark for further arguments, it stands between an index and the current
token. -/
def StandsFrom (start : Nat) : Parameter → ParseState → Prop
  | .member _, _ => True
  | .varargs span, state => start ≤ span.start ∧ span.start < state.site

theorem StandsFrom.mono {start earlier : Nat} {parameter : Parameter} {state later : ParseState}
    (stands : StandsFrom start parameter state) (lower : earlier ≤ start)
    (further : state.site ≤ later.site) : StandsFrom earlier parameter later := by
  cases parameter with
  | member => trivial
  | varargs span =>
    exact ⟨Nat.le_trans lower stands.1, Nat.lt_of_lt_of_le stands.2 further⟩

theorem adds_membersOf (starts : Starts tokens low before) (parameters : List Parameter)
    (spares : ∀ span, .varargs span ∈ parameters →
      low ≤ span.start ∧ before.Spares span.start "misplaced variadic marker") :
    (membersOf parameters).Adds tokens quiet low before fun _ _ => True := by
  match parameters with
  | [] => exact .pure starts trivial
  | [.varargs _] => exact .pure starts trivial
  | .varargs span :: _ :: _ =>
    obtain ⟨pointed, silent⟩ := spares span List.mem_cons_self
    exact .fail starts.opens pointed silent
  | .member _ :: rest =>
    have later := adds_membersOf starts rest fun span member =>
      spares span (List.mem_cons_of_mem _ member)
    exact later.bind starts.opens fun _ _ starts _ _ => .pure starts trivial

variable {type : Parser Annotation} (types : type.AddsNew tokens)
include types

theorem adds_parameter (starts : Starts tokens low before) :
    (parameter type).Adds tokens quiet low before (StandsFrom before.site) := by
  refine .token (.ite (fun same => ?_) fun _ => ?_)
  · have present : before.current.token.lexeme ≠ .endOfInput := fun last => by
      simp [Token.name, Lexeme.name, last] at same
    exact .advance starts.opens present fun _ starts passes =>
      .pure starts ⟨Nat.le_refl _, passes.moved⟩
  · refine (adds_parameterName? starts).bind starts.opens fun name _ starts _ _ => ?_
    exact (types starts).bind starts.opens fun _ _ starts _ _ => .pure starts trivial

theorem adds_signatureOf : (signatureOf type).AddsNew tokens := by
  intro quiet low before starts
  have taken : (consume (.punctuation .openingRoundBracket)).Adds tokens quiet low before
      fun token after => token = before.current.token ∧ Passes tokens before after :=
    adds_consume starts.opens (fun _ => starts.settled) (by simp)
  refine taken.bind starts.opens fun opening inside insideStarts _ taken => ?_
  obtain ⟨rfl, passes⟩ := taken
  -- the parameters are read without a report, so that none is about the marks in them
  have listed : (commaSeparated before.current.token (.punctuation .closingRoundBracket)
      (parameter type)).Adds tokens True low inside fun listed after =>
        ∀ found ∈ listed.1, StandsFrom inside.site found after :=
    adds_commaSeparated insideStarts starts.le (passes.spares _ (by decide))
      (fun _ _ _ further stands => stands.mono (Nat.le_refl _) further)
      fun after starts follows => (adds_parameter types starts).mono fun _ last _ stands =>
        stands.mono (insideStarts.settled.stands.site_le follows.reaches) (Nat.le_refl _)
  refine listed.quietly.bind insideStarts.opens fun listed behind starts _ known => ?_
  obtain ⟨silent, stand⟩ := known
  have members : (membersOf listed.1).Adds tokens quiet low behind fun _ _ => True := by
    apply adds_membersOf starts
    intro span member
    obtain ⟨lower, upper⟩ := stand _ member
    refine ⟨Nat.le_trans insideStarts.le lower, upper, fun error isOld sameSite => ?_⟩
    have less := insideStarts.settled.behind error (silent ▸ isOld)
    omega
  refine members.bind starts.opens fun _ _ starts _ _ => ?_
  exact (adds_led starts _ fun _ starts => types starts).bind starts.opens fun _ _ starts _ _ =>
    .pure starts trivial

theorem adds_typeOf : (typeOf type).AddsNew tokens := by
  intro quiet low before starts
  apply Adds.token
  split
  next same =>
    refine .advance starts.opens (by simp [same]) fun _ starts _ => ?_
    exact (types starts).bind starts.opens fun _ _ starts _ _ => .pure starts trivial
  next same =>
    exact .advance starts.opens (by simp [same]) fun _ starts _ => .pure starts trivial
  next => exact adds_qualifiedType starts
  next =>
    exact (adds_signatureOf types starts).bind starts.opens fun _ _ starts _ _ =>
      .pure starts trivial
  next => exact .failExpecting starts _ _

omit types in
theorem adds_typeWithin (depth : Nat) : (typeWithin depth).AddsNew tokens := by
  induction depth with
  | zero => exact fun _ _ _ starts => .exhaust starts.opens
  | succ depth ih => exact adds_typeOf ih

omit types in
theorem adds_type : Parser.type.AddsNew tokens := fun _ _ _ starts => .look (adds_typeWithin _ starts)

omit types in
theorem adds_signature : Parser.signature.AddsNew tokens := adds_signatureOf adds_type

end Types

/-- The parser starts at a token that has not been found out of place, or at one with which an
expression can begin. -/
structure Begins (tokens : List Token) (low : Nat) (before : ParseState) : Prop where
  opens : Opens tokens low before
  settled : beginsExpression before.current.token.lexeme = false → before.IsSettled tokens

theorem Starts.begins (starts : Starts tokens low before) : Begins tokens low before :=
  ⟨starts.opens, fun _ => starts.settled⟩

/-- No two reports up to the end of an expression are the same. -/
def AddsBegun (parser : Parser α) (tokens : List Token) : Prop :=
  ∀ ⦃low : Nat⦄ ⦃before : ParseState⦄, Begins tokens low before →
    parser.Adds tokens False low before fun _ _ => True

/-- The node is refused because no node starts with the current token. -/
def Refuses (parser : Parser Node) (before : ParseState) : Prop :=
  parser.run before = (fail (.noNode before.current.token) : Parser Node).run before

/-- No two reports up to the end of a node are the same, unless the node is refused. -/
def AddsOrRefuses (parser : Parser Node) (tokens : List Token) (low : Nat) (before : ParseState) :
    Prop :=
  (parser.Adds tokens False low before fun _ _ => True) ∨ parser.Refuses before

/-- A node adds new reports or is refused. The current token may have been found out of place before,
unless it is the end of the input. -/
def AddsNode (parser : Parser Node) (tokens : List Token) : Prop :=
  ∀ ⦃low : Nat⦄ ⦃before : ParseState⦄, Opens tokens low before →
    (before.current.token.lexeme = .endOfInput → before.IsSettled tokens) →
    parser.AddsOrRefuses tokens low before

/-- The parsers for what lies within an expression do not report anything twice. -/
structure AddWithin (inner : Inner) (tokens : List Token) : Prop where
  expression : inner.expression.AddsBegun tokens
  operand : inner.operand.AddsBegun tokens
  node : inner.node.AddsNode tokens

section Operators

theorem adds_binaryOperator? (starts : Starts tokens low before) :
    binaryOperator?.Adds tokens quiet low before fun _ _ => True :=
  .look (.pure starts trivial)

theorem adds_climbStep {climbed : Nat → Parser Expr}
    (adds : ∀ precedence, (climbed precedence).AddsBegun tokens) (starts : Starts tokens low before)
    (least : Nat) (left : Expr) :
    (climbStep climbed least left).Adds tokens False low before
      (Outcome (fun _ _ => True) fun _ _ => True) := by
  refine (adds_binaryOperator? starts).bind starts.opens fun found _ starts _ _ => ?_
  split
  next sign precedence =>
    refine .ite (fun _ => .pure starts trivial) fun _ => ?_
    refine (Adds.skip starts).bind starts.opens fun _ _ starts _ _ => ?_
    exact (adds _ starts.begins).bind starts.opens fun _ _ starts _ _ => .pure starts trivial
  next => exact .pure starts trivial

theorem adds_climbWithin {operand : Parser Expr} (operands : operand.AddsBegun tokens)
    (depth least : Nat) : (climbWithin operand depth least).AddsBegun tokens := by
  induction depth generalizing least with
  | zero => exact operands
  | succ depth ih =>
    intro low before begins
    refine (operands begins).bind begins.opens fun first _ starts _ _ => ?_
    exact .loop starts (fun _ _ => True)
      (fun left _ starts _ _ => adds_climbStep ih starts least left) trivial

end Operators

section Primaries

/-- An expression that is a single token. -/
theorem adds_literal (opens : Opens tokens low before) {lexeme : Lexeme}
    (same : before.current.token.lexeme = lexeme) (present : lexeme ≠ .endOfInput) (type : Ty)
    (form : Form) : (literal type form).Adds tokens quiet low before fun _ _ => True :=
  .token (.advance opens (same ▸ present) fun _ starts _ => .pure starts trivial)

theorem adds_characterDirective (opens : Opens tokens low before) {lexeme : Lexeme}
    (same : before.current.token.lexeme = lexeme) (present : lexeme ≠ .endOfInput) :
    characterDirective.Adds tokens quiet low before fun _ _ => True := by
  refine .token (.advance opens (same ▸ present) fun literal starts _ => .token ?_)
  split
  next content same =>
    refine .advance starts.opens (by simp [same]) fun _ lastStarts passes => ?_
    split
    · exact .pure lastStarts trivial
    · exact .fail lastStarts.opens starts.le (passes.spares "expected a single character" (by decide))
  next => exact .failExpecting starts _ _

/-- The refusal of a token is reported once more only if the token stands behind a `defer`. -/
theorem settled_refused (mayPend : before.MayPend tokens) (left : before.ahead ≠ []) :
    (before.told (.noNode before.current.token)).skip.IsSettled tokens := by
  obtain ⟨reaches, settled, -, moved, -, -⟩ := ParseState.passes_skip mayPend left
  refine ⟨⟨settled.stands.ended, settled.stands.increasing, settled.stands.suffix⟩, ?_, ?_⟩
  · refine ParseState.distinct_concat mayPend.distinct fun error member sameSite sameLabel => ?_
    obtain ⟨token, rfl⟩ := ParseError.exists_noNode sameLabel
    rcases mayPend.behind _ member with less | ⟨-, -, deferred⟩
    · exact absurd sameSite (Nat.ne_of_lt less)
    · exact ⟨token, rfl, deferred token rfl⟩
  · intro error member
    rcases List.mem_append.mp member with old | new
    · exact settled.behind error old
    · obtain rfl := List.mem_singleton.mp new
      exact moved

variable {node : Parser Node} (nodes : node.AddsNode tokens)
include nodes

/-- A node that fails leaves nothing behind but a report about the current token, and one that is
refused is skipped. -/
theorem meets_recovering (opens : Opens tokens low before)
    (present : before.current.token.lexeme ≠ .endOfInput) {failed : ParseState → Prop} :
    (recovering node).Meets before
      (fun _ after => after.MayPend tokens ∧ Since before.site before after) failed := by
  have left := opens.mayPend.stands.ahead_ne_nil present
  -- either the node tells of itself what it reports, or it only refuses the current token
  rcases nodes ⟨opens.mayPend, Nat.le_refl _⟩ fun last => absurd last present with adds | refuses
  · have attempted : (attempt node).Meets before
        (fun _ after => after.MayPend tokens ∧ Since before.site before after) failed := by
      refine ⟨?_, nofun⟩
      rintro _ ⟨⟩
      cases found : (node.run before).1 with
      | none => exact adds.2 found
      | some parsed =>
        obtain ⟨follows, -⟩ := adds.1 parsed found
        exact ⟨follows.settled.mayPend, follows.since⟩
    refine .look (.bind attempted fun found after reaches known => ?_)
    split
    next => exact .pure known
    next =>
      -- a node that failed without having moved on is about a token that is skipped now
      refine .look (.ite (fun stuck => ?_) fun _ => .pure known)
      have still : after.ahead = before.ahead := reaches.ahead_suffix.eq_of_length stuck
      have passes := ParseState.passes_skip known.1 (still ▸ left)
      exact .advance (.pure
        ⟨passes.settled.mayPend, fun error member => known.2 error (passes.same ▸ member)⟩)
  · have attempted : (attempt node).Meets before (fun found after => found = none ∧
        after = before.told (.noNode before.current.token)) failed := by
      refine ⟨?_, nofun⟩
      rintro _ ⟨⟩
      exact ⟨congrArg Prod.fst refuses, congrArg Prod.snd refuses⟩
    refine .look (.bind attempted fun found after _ known => ?_)
    obtain ⟨rfl, rfl⟩ := known
    refine .look (.ite (fun _ => ?_) fun moved => absurd rfl moved)
    have settled := settled_refused opens.mayPend left
    exact .advance (.pure ⟨settled.mayPend, Since.told (Nat.le_refl _)⟩)

/-- Every report within a block is about a token that the block passes, or about its opening bracket. -/
theorem meets_blockStep (opens : Opens tokens low before) {opening : Token}
    (pointed : low ≤ opening.span.start)
    (spares : before.Spares opening.span.start "unclosed delimiter") (found : List Node) :
    (blockStep node opening found).Meets before
      (Outcome (fun _ after => after.MayPend tokens ∧ Since before.site before after)
        fun _ after => after.IsSettled tokens ∧ Since before.site before after)
      fun after => after.MayPend tokens ∧ Since low before after := by
  apply Meets.token
  split
  next same =>
    have passes := ParseState.passes_skip opens.mayPend
      (opens.mayPend.stands.ahead_ne_nil (by simp [same]))
    exact .advance (.pure ⟨passes.settled, fun error member => .inl (passes.same ▸ member)⟩)
  next same =>
    have passes := ParseState.passes_skip opens.mayPend
      (opens.mayPend.stands.ahead_ne_nil (by simp [same]))
    exact .advance (.pure ⟨passes.settled.mayPend, fun error member => .inl (passes.same ▸ member)⟩)
  next =>
    have unclosed : (failUnclosed opening : Parser (List Node)).Adds tokens False low before
        fun _ _ => True := .failUnclosed opens pointed spares
    exact ⟨nofun, fun _ => unclosed.2 rfl⟩
  next present =>
    exact .bind (meets_recovering nodes opens present) fun _ _ _ known => .pure known

theorem adds_block (opens : Opens tokens low before)
    (same : before.current.token.name = .punctuation .openingCurlyBracket) :
    (block node).Adds tokens False low before fun _ _ => True := by
  refine (adds_consume opens (absurd same) (by simp)).bind opens
    fun opening inside starts _ taken => ?_
  obtain ⟨rfl, passes⟩ := taken
  -- of the bracket itself nothing is said but, at the end of the input, that it stays open
  have spares := passes.spares "unclosed delimiter" (by decide)
  have stands := starts.settled.stands
  have step (found : List Node) (after : ParseState) (afterOpens : Opens tokens low after)
      (reaches : inside.Reaches after) (since : Since inside.site inside after) :=
    meets_blockStep nodes afterOpens opens.le (spares.of_since stands reaches since) found
  have within := Meets.recover starts.opens (ParseState.IsSettled tokens ·) step []
  have inner : (loop (blockStep node before.current.token) []).Adds tokens False low inside
      fun _ _ => True :=
    within.mono (fun _ _ reaches known => ⟨⟨reaches, known.2.1, known.2.2, False.elim⟩, trivial⟩)
      fun _ _ fails => fails
  exact inner.bind starts.opens fun _ _ starts _ _ => .pure starts trivial

end Primaries

section Within

variable {inner : Inner} (known : AddWithin inner tokens)
include known

theorem adds_suffixStep (starts : Starts tokens low before) (operand : Expr) :
    (suffixStep inner operand).Adds tokens False low before
      (Outcome (fun _ _ => True) fun _ _ => True) := by
  apply Adds.token
  split
  next same =>
    refine .advance starts.opens (by simp [same]) fun _ starts _ => ?_
    exact (adds_type starts).bind starts.opens fun _ _ starts _ _ => .pure starts trivial
  next same =>
    refine .advance starts.opens (by simp [same]) fun _ inside passes => ?_
    have anything : ∀ (_ : Expr) (after last : ParseState), after.site ≤ last.site → True → True :=
      fun _ _ _ _ known => known
    exact (adds_commaSeparated inside starts.le (passes.spares _ (by decide)) anything
      fun _ starts _ => known.expression starts.begins).bind inside.opens
        fun _ _ starts _ _ => .pure starts trivial
  next same =>
    refine .advance starts.opens (by simp [same]) fun _ starts _ => ?_
    exact (adds_consumeIdentifier starts).bind starts.opens fun _ _ starts _ _ =>
      .pure starts trivial
  next => exact .pure starts trivial

theorem adds_suffixes (starts : Starts tokens low before) (operand : Expr) :
    (suffixes inner operand).Adds tokens False low before fun _ _ => True :=
  .loop starts (fun _ _ => True) (fun operand _ starts _ _ => adds_suffixStep known starts operand)
    trivial

theorem adds_bracketed (opens : Opens tokens low before) {lexeme : Lexeme}
    (same : before.current.token.lexeme = lexeme) (present : lexeme ≠ .endOfInput) :
    (bracketed inner).Adds tokens False low before fun _ _ => True := by
  refine .token (.advance opens (same ▸ present) fun inside insideStarts passes => ?_)
  refine (known.expression insideStarts.begins).bind insideStarts.opens
    fun _ last starts follows _ => ?_
  refine .token (.ite (fun _ => ?_) fun _ => ?_)
  · exact .failUnclosed starts.opens opens.le
      (follows.spares insideStarts.settled.stands (passes.spares _ (by decide)))
  · exact (adds_consume starts.opens (fun _ => starts.settled) (by simp)).bind starts.opens
      fun _ _ starts _ _ => .pure starts trivial

theorem adds_branches (opens : Opens tokens low before) {lexeme : Lexeme}
    (same : before.current.token.lexeme = lexeme) (present : lexeme ≠ .endOfInput)
    (form : Expr → Expr → Option Expr → Form) :
    (branches inner form).Adds tokens False low before fun _ _ => True := by
  refine .token (.advance opens (same ▸ present) fun _ starts _ => ?_)
  refine (known.expression starts.begins).bind starts.opens fun _ _ starts _ _ => ?_
  refine (known.expression starts.begins).bind starts.opens fun _ _ starts _ _ => ?_
  exact (adds_led starts _ fun _ starts => known.expression starts.begins).bind starts.opens
    fun _ _ starts _ _ => .pure starts trivial

/-- A node behind a `defer` may be refused, which leaves a report about the token there. -/
theorem adds_deferred (starts : Starts tokens low before)
    (deferred : IsDeferred tokens before.current.token) :
    inner.node.Adds tokens False low before fun _ _ => True := by
  rcases known.node starts.opens fun _ => starts.settled with adds | refuses
  · exact adds
  · have refused : (fail (.noNode before.current.token) : Parser Node).Adds tokens False low before
        fun _ _ => True := by
      refine .failPending starts rfl ?_ ?_
      · simp [ParseError.IsPending, ParseError.label, ParseError.pendingLabels]
      · rintro _ ⟨⟩
        exact deferred
    rw [Adds, Meets, refuses]
    exact refused

/-- Operators in front of an operand are taken before the rest of it is looked at. -/
theorem adds_primary (opens : Opens tokens low before)
    (settled : (beginsExpression before.current.token.lexeme = false ∨
      ∃ sign, before.current.token.lexeme = .operator sign) → before.IsSettled tokens) :
    (primary inner).Adds tokens False low before fun _ _ => True := by
  apply Adds.token
  split
  next same => exact adds_literal opens same (by simp) _ _
  next same => exact adds_literal opens same (by simp) _ _
  next same => exact adds_literal opens same (by simp) _ _
  next same => exact adds_literal opens same (by simp) _ _
  next same => exact adds_literal opens same (by simp) _ _
  next same => exact adds_literal opens same (by simp) _ _
  next name same =>
    refine .ite (fun _ => adds_characterDirective opens same (by simp)) fun other => ?_
    exact .failExpecting ⟨settled (.inl (by simp [same, beginsExpression, other])), opens.le⟩ _ _
  next same =>
    exact .advance opens (by simp [same]) fun _ starts _ => .pure starts trivial
  next same => exact adds_bracketed known opens same (by simp)
  next same => exact adds_block known.node opens (by simp [Token.name, Lexeme.name, same])
  next same => exact adds_branches known opens same (by simp) _
  next same => exact adds_branches known opens same (by simp) _
  next same => exact adds_branches known opens same (by simp) _
  next same => exact adds_branches known opens same (by simp) _
  next same =>
    refine .advance opens (by simp [same]) fun _ starts _ => ?_
    exact (adds_type starts).bind starts.opens fun _ _ starts _ _ => .pure starts trivial
  next same =>
    refine .advance opens (by simp [same]) fun _ starts _ => ?_
    exact (known.expression starts.begins).bind starts.opens fun _ _ starts _ _ =>
      .pure starts trivial
  next same =>
    refine .advance opens (by simp [same]) fun _ starts passes => ?_
    exact (adds_deferred known starts ⟨_, passes.adjacent, same⟩).bind starts.opens
      fun _ _ starts _ _ => .pure starts trivial
  -- the other tokens are refused, and so they must not have been found out of place before
  next same =>
    exact .failExpecting ⟨settled (.inl (by simp_all [beginsExpression])), opens.le⟩ _ _
  next same =>
    exact .failExpecting ⟨settled (.inl (by simp_all [beginsExpression])), opens.le⟩ _ _
  next sign same => exact .failExpecting ⟨settled (.inr ⟨sign, same⟩), opens.le⟩ _ _
  next same =>
    exact .failExpecting ⟨settled (.inl (by simp [same, beginsExpression])), opens.le⟩ _ _
  next same =>
    exact .failExpecting ⟨settled (.inl (by simp [same, beginsExpression])), opens.le⟩ _ _

theorem adds_operandOf : (operandOf inner).AddsBegun tokens := by
  intro low before begins
  -- without an operator in front, the operand is a primary expression with what stands behind it
  have plain (settled : (beginsExpression before.current.token.lexeme = false ∨
      ∃ sign, before.current.token.lexeme = .operator sign) → before.IsSettled tokens) :
      (primary inner >>= suffixes inner).Adds tokens False low before fun _ _ => True :=
    (adds_primary known begins.opens settled).bind begins.opens fun operand _ starts _ _ =>
      adds_suffixes known starts operand
  apply Adds.token
  split
  next sign same =>
    refine .ite (fun _ => ?_) fun binary => ?_
    · refine .advance begins.opens (by simp [same]) fun _ starts _ => ?_
      exact (known.operand starts.begins).bind starts.opens fun _ _ starts _ _ =>
        .pure starts trivial
    · exact plain fun _ => begins.settled (by simpa [same, beginsExpression] using binary)
  next other =>
    refine plain fun outside => begins.settled (outside.resolve_right ?_)
    rintro ⟨sign, same⟩
    exact other sign same

theorem adds_expressionOf : (expressionOf inner).AddsBegun tokens :=
  adds_climbWithin (adds_operandOf known) _ _

end Within

section Declarations

/-- The names of declarations may be missing, which is reported about the keyword in front of them.
What the report spares still holds behind it. -/
def NamesBehind (naming : Parser (Option Identifier)) (tokens : List Token) (keyword : Token)
    (spared : String) (before : ParseState) : Prop :=
  naming.Meets before
    (fun _ after => after.IsSettled tokens ∧ Since keyword.span.start before after ∧
      after.Spares keyword.span.start spared)
    fun after => after.MayPend tokens ∧ Since keyword.span.start before after

/-- A name that is found in its place. -/
theorem Adds.namesBehind {naming : Parser (Option Identifier)} {keyword : Token} {spared : String}
    (adds : naming.Adds tokens False keyword.span.start before fun _ _ => True)
    (starts : Starts tokens keyword.span.start before)
    (spares : before.Spares keyword.span.start spared) :
    naming.NamesBehind tokens keyword spared before := by
  refine Meets.mono adds (fun _ after _ known => ?_) fun _ _ fails => fails
  exact ⟨known.1.settled, known.1.since.lower starts.le,
    known.1.spares starts.settled.stands spares⟩

/-- A declaration starts with its keyword and its name. -/
theorem adds_named {name : TokenName} {naming : Token → Parser (Option Identifier)}
    {next : Token → Option Identifier → Parser Node} {spared : String}
    (opens : Opens tokens low before)
    (settled : before.current.token.name ≠ name → before.IsSettled tokens)
    (present : name ≠ .endOfInput)
    (names : ∀ inside, Starts tokens before.site inside →
      (∀ label ∉ ParseError.pendingLabels, inside.Spares before.site label) →
      (naming before.current.token).NamesBehind tokens before.current.token spared inside)
    (rest : ∀ binder after, Starts tokens low after → after.Spares before.site spared →
      (next before.current.token binder).Adds tokens False low after fun _ _ => True) :
    (consume name >>= fun keyword => naming keyword >>= next keyword).Adds tokens False low before
      fun _ _ => True := by
  have stands := opens.mayPend.stands
  -- the name may be missing, which is a report about the keyword, and so the two are followed by hand
  have taken : (consume name).Adds tokens False low before fun token after =>
      token = before.current.token ∧ Passes tokens before after := adds_consume opens settled present
  refine Meets.bind taken fun keyword inside reaches taken => ?_
  obtain ⟨follows, rfl, passes⟩ := taken
  have insideStarts : Starts tokens before.site inside := ⟨passes.settled, stands.site_le reaches⟩
  have sinceStart := follows.since
  refine (Meets.mono (names inside insideStarts passes.spares) (fun _ _ _ known => known)
    fun _ _ fails => ⟨fails.1, (sinceStart.trans fails.2).lower opens.le⟩).bind
    fun binder after further known => ?_
  obtain ⟨afterSettled, since, spares⟩ := known
  have total := reaches.trans further
  have le := stands.site_le total
  refine Meets.mono (rest binder after ⟨afterSettled, Nat.le_trans opens.le le⟩ spares)
    (fun _ last more known => ?_) fun _ _ fails =>
      ⟨fails.1, ((sinceStart.trans since).lower opens.le).trans fails.2⟩
  exact ⟨⟨total.trans more, known.1.settled,
    (sinceStart.trans since).trans (known.1.since.lower le), False.elim⟩, trivial⟩

theorem names_procedureName {keyword : Token} (starts : Starts tokens keyword.span.start before)
    (spares : ∀ label ∉ ParseError.pendingLabels, before.Spares keyword.span.start label) :
    (procedureName keyword).NamesBehind tokens keyword "incomplete procedure" before := by
  have spared := spares "incomplete procedure" (by decide)
  apply Meets.token
  split
  next same =>
    refine Adds.namesBehind ?_ starts spared
    exact .advance starts.opens (by simp [same]) fun _ starts _ => .pure starts trivial
  next same =>
    refine Adds.namesBehind ?_ starts spared
    exact .advance starts.opens (by simp [same]) fun _ starts _ => .pure starts trivial
  next =>
    -- the bracket that is found instead of a name is left for the signature
    have settled : (before.told (.unnamedProcedure keyword before.current.token)).IsSettled tokens :=
      starts.settled.told (spares "unnamed procedure" (by decide))
    exact ⟨fun _ _ => ⟨settled, .told (Nat.le_refl _), spared.told (by simp [ParseError.label])⟩,
      fun failed => absurd failed (Option.some_ne_none _)⟩
  next =>
    refine .look (.ite (fun opening => ?_) fun _ => ?_)
    · -- what stands in place of the name is taken, so that it is not looked at again
      have left : before.ahead ≠ [] := by
        intro none
        have ended : before.finish.token.lexeme = .endOfInput := starts.settled.stands.ended
        simp [none, Token.name, ended, Lexeme.name] at opening
      have passes := ParseState.passes_skip starts.settled.mayPend left
      have settled :
          (before.skip.told (.invalidProcedureName before.current.token)).IsSettled tokens :=
        passes.settled.told (passes.spares "expected an identifier or an operator" (by decide))
      have since : Since keyword.span.start before before.skip := fun _ member => .inl member
      refine ⟨fun _ _ => ⟨settled, since.trans (.told starts.le), ?_⟩,
        fun failed => absurd failed (Option.some_ne_none _)⟩
      exact (spared.of_since starts.settled.stands passes.reaches fun _ member => .inl member).told
        (by simp [ParseError.label])
    · refine Adds.namesBehind ?_ starts spared
      exact .fail starts.opens (Nat.le_refl _)
        (spares "expected a procedure declaration to start here" (by decide))

theorem names_structName {keyword : Token} {spared : String}
    (starts : Starts tokens keyword.span.start before)
    (spares : ∀ label ∉ ParseError.pendingLabels, before.Spares keyword.span.start label)
    (other : "unnamed struct" ≠ spared) (known : spared ∉ ParseError.pendingLabels) :
    (structName keyword).NamesBehind tokens keyword spared before := by
  have spared := spares spared known
  apply Meets.token
  split
  next same =>
    refine Adds.namesBehind ?_ starts spared
    exact .advance starts.opens (by simp [same]) fun _ starts _ => .pure starts trivial
  next =>
    have settled : (before.told (.unnamedStruct keyword before.current.token)).IsSettled tokens :=
      starts.settled.told (spares "unnamed struct" (by decide))
    exact ⟨fun _ _ => ⟨settled, .told (Nat.le_refl _), spared.told other⟩, nofun⟩
  next =>
    refine Adds.namesBehind ?_ starts spared
    exact .failExpecting starts _ _

theorem adds_separator (starts : Starts tokens low before) :
    separator.Adds tokens quiet low before fun _ _ => True := by
  refine (adds_consumeIf starts _).bind starts.opens fun _ _ starts _ _ => ?_
  refine .ite (fun _ => .pure starts trivial) fun _ => ?_
  exact (adds_consumeIf starts _).bind starts.opens fun _ _ starts _ _ => .pure starts trivial

theorem adds_structField (starts : Starts tokens low before) :
    structField.Adds tokens quiet low before fun _ _ => True := by
  refine (adds_consumeIdentifier starts).bind starts.opens fun _ _ starts _ _ => ?_
  refine (adds_consume starts.opens (fun _ => starts.settled) (by simp)).bind starts.opens
    fun _ _ starts _ _ => ?_
  refine (adds_type starts).bind starts.opens fun _ _ starts _ _ => ?_
  exact (adds_separator starts).bind starts.opens fun _ _ starts _ _ => .pure starts trivial

theorem adds_fieldStep (starts : Starts tokens low before) {opening : Token}
    (pointed : low ≤ opening.span.start)
    (spares : before.Spares opening.span.start "unclosed delimiter") (fields : List Member) :
    (fieldStep opening fields).Adds tokens quiet low before
      (Outcome (fun _ _ => True) fun _ _ => True) := by
  apply Adds.token
  split
  next => exact (Adds.skip starts).bind starts.opens fun _ _ starts _ _ => .pure starts trivial
  next => exact .failUnclosed starts.opens pointed spares
  next => exact (adds_structField starts).bind starts.opens fun _ _ starts _ _ => .pure starts trivial

theorem adds_struct (opens : Opens tokens low before)
    (settled : before.current.token.name ≠ .keyword .struct → before.IsSettled tokens) :
    struct.Adds tokens False low before fun _ _ => True := by
  have names (inside : ParseState) (starts : Starts tokens before.site inside)
      (spares : ∀ label ∉ ParseError.pendingLabels, inside.Spares before.site label) :
      (structName before.current.token).NamesBehind tokens before.current.token "unclosed delimiter"
        inside := names_structName starts spares (by decide) (by decide)
  refine adds_named opens settled (by simp) names fun binder after starts _ => ?_
  refine (adds_consume starts.opens (fun _ => starts.settled) (by simp)).bind starts.opens
    fun opening inside insideStarts _ taken => ?_
  obtain ⟨rfl, passes⟩ := taken
  have fields : (loop (fieldStep after.current.token) []).Adds tokens False low inside
      fun _ _ => True :=
    .loop insideStarts (fun _ _ => True)
      (fun fields last lastStarts follows _ => adds_fieldStep lastStarts starts.le
        (follows.spares insideStarts.settled.stands (passes.spares _ (by decide))) fields)
      trivial
  exact fields.bind insideStarts.opens fun _ _ starts _ _ => .pure starts trivial

theorem adds_load (opens : Opens tokens low before)
    (present : before.current.token.lexeme ≠ .endOfInput) :
    load.Adds tokens quiet low before fun _ _ => True := by
  refine .token (.advance opens present fun _ starts _ => .token ?_)
  split
  next same =>
    exact .advance starts.opens (by simp [same]) fun _ starts _ => .pure starts trivial
  next => exact .failExpecting starts _ _

variable {inner : Inner} (known : AddWithin inner tokens)
include known

theorem adds_procedureBody (starts : Starts tokens low before) {keyword : Token}
    (pointed : low ≤ keyword.span.start)
    (spares : before.Spares keyword.span.start "incomplete procedure") :
    (procedureBody inner keyword).Adds tokens False low before fun _ _ => True := by
  apply Adds.token
  split
  next =>
    exact (Adds.skip starts).bind starts.opens fun _ _ starts _ _ => known.expression starts.begins
  next same => exact adds_block known.node starts.opens (by simp [Token.name, Lexeme.name, same])
  next => exact .fail starts.opens pointed spares

theorem adds_procedure (opens : Opens tokens low before)
    (settled : before.current.token.name ≠ .keyword .proc → before.IsSettled tokens)
    (external : Option Token) :
    (procedure inner external).Adds tokens False low before fun _ _ => True := by
  refine adds_named opens settled (by simp) (fun inside starts spares =>
    names_procedureName starts spares) fun binder after afterStarts spares => ?_
  refine .token (.ite (fun _ => .fail afterStarts.opens opens.le spares) fun _ => ?_)
  refine (adds_signature afterStarts).bind afterStarts.opens fun head last starts follows _ => ?_
  refine .ite (fun _ => .pure starts trivial) fun _ => ?_
  exact (adds_procedureBody known starts opens.le
    (follows.spares afterStarts.settled.stands spares)).bind starts.opens fun _ _ starts _ _ =>
      .pure starts trivial

theorem adds_initialValue (starts : Starts tokens low before) :
    (initialValue inner).Adds tokens False low before fun _ _ => True :=
  .token (.ite
    (fun _ => (Adds.skip starts).bind starts.opens fun _ _ starts _ _ => .pure starts trivial)
    fun _ => known.expression starts.begins)

theorem adds_binding (opens : Opens tokens low before)
    (present : before.current.token.lexeme ≠ .endOfInput) (kind : BindingKind) :
    (binding inner kind).Adds tokens False low before fun _ _ => True := by
  refine .token (.advance opens present fun _ starts _ => ?_)
  refine (adds_consumeIdentifier starts).bind starts.opens fun _ _ starts _ _ => ?_
  refine (adds_led starts _ fun _ starts => adds_type starts).bind starts.opens
    fun _ _ starts _ _ => ?_
  exact (adds_led starts _ fun _ starts => adds_initialValue known starts).bind starts.opens
    fun _ _ starts _ _ => .pure starts trivial

/-- A target that cannot be assigned to is reported about the sign behind it. -/
theorem adds_assignment (starts : Starts tokens low before)
    (present : before.current.token.lexeme ≠ .endOfInput) (target : Expr)
    (operator : Option Operator) :
    (assignment inner target operator).Adds tokens False low before fun _ _ => True := by
  refine .token (.advance starts.opens present fun inside insideStarts passes => ?_)
  refine (known.expression insideStarts.begins).bind insideStarts.opens
    fun _ last lastStarts follows _ => ?_
  refine .ite (fun _ => .pure lastStarts trivial) fun _ => ?_
  exact .fail lastStarts.opens starts.le
    (follows.spares insideStarts.settled.stands (passes.spares "assignment" (by decide)))

theorem adds_statement : (statement inner).AddsBegun tokens := by
  intro low before begins
  refine (adds_expressionOf known begins).bind begins.opens fun target _ starts _ _ => ?_
  apply Adds.token
  split
  next same => exact adds_assignment known starts (by simp [same]) _ _
  next same =>
    split
    · exact adds_assignment known starts (by simp [same]) _ _
    · exact .pure starts trivial
  next => exact .pure starts trivial

end Declarations

section Nodes

theorem AddsOrRefuses.token {next : Token → Parser Node}
    (known : (next before.current.token).AddsOrRefuses tokens low before) :
    (token >>= next).AddsOrRefuses tokens low before := known

theorem AddsOrRefuses.look {result : ParseState → α} {next : α → Parser Node}
    (known : (next (result before)).AddsOrRefuses tokens low before) :
    (Parser.look result >>= next).AddsOrRefuses tokens low before := known

theorem AddsOrRefuses.ite {condition : Prop} [Decidable condition] {left right : Parser Node}
    (first : condition → left.AddsOrRefuses tokens low before)
    (second : ¬ condition → right.AddsOrRefuses tokens low before) :
    (if condition then left else right).AddsOrRefuses tokens low before := by
  split
  next holds => exact first holds
  next fails => exact second fails

theorem adds_nodeOf {inner : Inner} (known : AddWithin inner tokens) :
    (nodeOf inner).AddsNode tokens := by
  intro low before opens settled
  apply AddsOrRefuses.token
  -- a keyword that a declaration starts with is taken, whatever was said of it
  split
  next same =>
    refine .inl (.advance opens (by simp [same]) fun _ starts _ => .token (.ite (fun _ => ?_) fun _ => ?_))
    · exact adds_procedure known starts.opens (fun _ => starts.settled) _
    · exact .failExpecting starts _ _
  next same => exact .inl (adds_procedure known opens (absurd (by simp [Token.name, Lexeme.name, same])) none)
  next same => exact .inl (adds_struct opens (absurd (by simp [Token.name, Lexeme.name, same])))
  next same => exact .inl (adds_binding known opens (by simp [same]) _)
  next same => exact .inl (adds_binding known opens (by simp [same]) _)
  next same => exact .inl (.failExpecting ⟨settled same, opens.le⟩ _ _)
  next present =>
    refine .ite (fun _ => .inl (adds_load opens present)) fun _ => .ite (fun begins => ?_) fun _ => .inr rfl
    exact .inl (adds_statement known ⟨opens, fun other => absurd begins (by simp [other])⟩)

/-- Whatever nests does not report anything twice. -/
theorem addWithin_innerWithin (depth : Nat) : AddWithin (innerWithin depth) tokens := by
  induction depth with
  | zero =>
    exact ⟨fun _ _ begins => .exhaust begins.opens, fun _ _ begins => .exhaust begins.opens,
      fun _ _ opens _ => .inl (.exhaust opens)⟩
  | succ depth ih => exact ⟨adds_expressionOf ih, adds_operandOf ih, adds_nodeOf ih⟩

theorem adds_node : node.AddsNode tokens := fun _ _ opens settled =>
  .look (adds_nodeOf (addWithin_innerWithin _) opens settled)

theorem meets_nodesStep (opens : Opens tokens low before) (found : List Node) :
    (nodesStep found).Meets before
      (Outcome (fun _ after => after.MayPend tokens ∧ Since before.site before after)
        fun _ after => after.MayPend tokens ∧ Since before.site before after)
      fun after => after.MayPend tokens ∧ Since low before after := by
  apply Meets.token
  split
  next => exact .pure ⟨opens.mayPend, .refl _ _⟩
  next same =>
    have passes := ParseState.passes_skip opens.mayPend
      (opens.mayPend.stands.ahead_ne_nil (by simp [same]))
    exact .advance (.pure ⟨passes.settled.mayPend, fun error member => .inl (passes.same ▸ member)⟩)
  next present _ =>
    exact .bind (meets_recovering adds_node opens present) fun _ _ _ known => .pure known

/-- No two reports on a file are the same, except for those about tokens behind a `defer` that no node
starts with. -/
theorem mayPend_nodes (settled : before.IsSettled tokens) :
    (nodes.run before).2.MayPend tokens := by
  have opens : Opens tokens before.site before := ⟨settled.mayPend, Nat.le_refl _⟩
  have meets := Meets.recover opens (ParseState.MayPend tokens ·)
    (fun found after afterOpens _ _ => meets_nodesStep afterOpens found) []
  cases found : (nodes.run before).1 with
  | none => exact (meets.2 found).1
  | some result => exact (meets.1 result found).2.1

end Nodes

end Parser

end Cadence
