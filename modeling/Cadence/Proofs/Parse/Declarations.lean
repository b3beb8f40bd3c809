import Cadence.Proofs.Parse.Expressions

/-!
# Declarations and statements are recognized

A name that is missing or wrong is reported even where it is tolerated, so that nothing is accepted
without a name. With the declarations all parsers for nodes are recognized, and so is the language.
-/
namespace Cadence

open Source (Span)

namespace Parser

variable {finish : PlacedToken} {input rest : List PlacedToken}
variable (ended : finish.token.lexeme = .endOfInput)

section Names

include ended

theorem accepts_procedureName {keyword : Token} {found : Option Identifier} :
    (procedureName keyword).Accepts finish input rest found ↔
      ∃ first name, input = first :: rest ∧ IsProcedureName first.token.lexeme name ∧
        found = some ⟨name, first.token.span⟩ := by
  -- a name that is reported is not accepted, whatever is read behind the report
  have reported {error : ParseError} {next : Unit → Parser (Option Identifier)} :
      ¬ (report error >>= next).Accepts finish input rest found := by
    intro accepts
    obtain ⟨_, _, reports, _⟩ := accepts_bind.mp accepts
    exact not_accepts_report reports
  rw [procedureName, accepts_token]
  constructor
  · intro accepts
    split at accepts
    next name same =>
      obtain ⟨first, tail, rfl, same⟩ := exists_cons ended same (by simp)
      obtain ⟨rfl, rfl⟩ := accepts_pure.mp accepts
      exact ⟨first, name, rfl, same ▸ .identifier, rfl⟩
    next sign same =>
      obtain ⟨first, tail, rfl, same⟩ := exists_cons ended same (by simp)
      obtain ⟨rfl, rfl⟩ := accepts_pure.mp accepts
      exact ⟨first, sign.name, rfl, same ▸ .operator, rfl⟩
    next => exact absurd accepts reported
    next =>
      rw [accepts_nextToken] at accepts
      split at accepts
      next => exact absurd accepts reported
      next => exact absurd accepts not_accepts_fail
  · rintro ⟨first, name, rfl, isName, rfl⟩
    rw [List.headD_cons]
    generalize kind : first.token.lexeme = lexeme at isName
    cases isName <;> exact accepts_advance.mpr (accepts_pure.mpr ⟨rfl, rfl⟩)

theorem accepts_structName {keyword : Token} {found : Option Identifier} :
    (structName keyword).Accepts finish input rest found ↔
      ∃ first name, input = first :: rest ∧ first.token.lexeme = .identifier name ∧
        found = some ⟨name, first.token.span⟩ := by
  rw [structName, accepts_token]
  constructor
  · intro accepts
    split at accepts
    next name same =>
      obtain ⟨first, tail, rfl, same⟩ := exists_cons ended same (by simp)
      obtain ⟨rfl, rfl⟩ := accepts_pure.mp accepts
      exact ⟨first, name, rfl, same, rfl⟩
    next =>
      obtain ⟨_, _, reports, _⟩ := accepts_bind.mp accepts
      exact absurd reports not_accepts_report
    next => exact absurd accepts not_accepts_failExpecting
  · rintro ⟨first, name, rfl, same, rfl⟩
    simp [same]

end Names

section Structs

include ended

theorem recognizes_separator : separator.Recognizes finish SeparatorPhrase input := by
  intro rest found
  rw [separator, accepts_bind]
  constructor
  · rintro ⟨isComma, middle, comma, accepts⟩
    rcases (accepts_consumeIf ended (by simp)).mp comma with
      ⟨first, rfl, same, rfl⟩ | ⟨noComma, rfl, rfl⟩
    · obtain ⟨_, rfl⟩ := accepts_pure.mp accepts
      exact .present (.inl (Token.name_eq_punctuation.mp same))
    · obtain ⟨isSemicolon, behind, semicolon, accepts⟩ := accepts_bind.mp accepts
      obtain ⟨_, rfl⟩ := accepts_pure.mp accepts
      rcases (accepts_consumeIf ended (by simp)).mp semicolon with
        ⟨first, rfl, same, _⟩ | ⟨noSemicolon, rfl, _⟩
      · exact .present (.inr (Token.name_eq_punctuation.mp same))
      · exact .absent noComma noSemicolon
  · have skips {first : PlacedToken} {mark : TokenName} (same : first.token.name = mark)
        (present : mark ≠ .endOfInput) :
        (consumeIf mark).Accepts finish (first :: rest) rest true :=
      (accepts_consumeIf ended present).mpr (.inl ⟨first, rfl, same, rfl⟩)
    have stays {mark : TokenName} {input : List PlacedToken} (other : ¬ Begins mark input)
        (present : mark ≠ .endOfInput) : (consumeIf mark).Accepts finish input input false :=
      (accepts_consumeIf ended present).mpr (.inr ⟨other, rfl, rfl⟩)
    intro derivation
    cases derivation with
    | @present first _ same =>
      rcases same with same | same
      · have comma := skips (Token.name_eq_punctuation.mpr same) (by simp)
        exact ⟨true, rest, comma, accepts_pure.mpr ⟨rfl, rfl⟩⟩
      · have semicolon := skips (Token.name_eq_punctuation.mpr same) (by simp)
        -- a semicolon is looked for only where there is no comma
        have noComma : ¬ Begins (.punctuation .comma) (first :: rest) := by
          rintro ⟨head, isHead, isComma⟩
          cases isHead
          simp [same] at isComma
        refine ⟨false, first :: rest, stays noComma (by simp), ?_⟩
        exact accepts_bind.mpr ⟨true, rest, semicolon, accepts_pure.mpr ⟨rfl, rfl⟩⟩
    | absent noComma noSemicolon =>
      refine ⟨false, input, stays noComma (by simp), ?_⟩
      exact accepts_bind.mpr ⟨false, input, stays noSemicolon (by simp), accepts_pure.mpr ⟨rfl, rfl⟩⟩

theorem accepts_structField {found : Member} :
    structField.Accepts finish input rest found ↔ FieldPhrase naming input rest [found] := by
  simp only [structField, accepts_bind, accepts_pure]
  constructor
  · rintro ⟨_, _, named, _, inside, colon, annotated, behind, typed, _, _, separates, rfl, rfl⟩
    obtain ⟨first, name, rfl, same, rfl⟩ := (accepts_consumeIdentifier ended).mp named
    obtain ⟨colon, rfl, isColon, rfl⟩ := (accepts_consume ended (by simp)).mp colon
    exact .intro same (Token.name_eq_punctuation.mp isColon) ((recognizes_type ended _ _).mp typed)
      ((recognizes_separator ended _ _).mp separates)
  · intro derivation
    cases derivation with
    | @intro first colon inside behind _ name annotated same isColon typed separates =>
      have colons : (consume (.punctuation .colon)).Accepts finish (colon :: inside) inside
          colon.token := consume_accepts (Token.name_eq_punctuation.mpr isColon)
      exact ⟨_, colon :: inside, consumeIdentifier_accepts same, _, inside, colons, annotated, behind,
        (recognizes_type ended _ _).mpr typed, (), rest, (recognizes_separator ended _ _).mpr separates,
        rfl, rfl⟩

theorem accepts_fieldStep {opening : Token} {fields : List Member}
    {outcome : Step (List Member) (List Member × Token)} :
    (fieldStep opening fields).Accepts finish input rest outcome ↔
      (∃ result, Closes fields input rest result ∧ outcome = .done result) ∨
      ∃ found, FieldPhrase naming input rest found ∧ outcome = .more (fields ++ found) := by
  rw [fieldStep, accepts_token]
  constructor
  · intro accepts
    split at accepts
    next same =>
      obtain ⟨closing, tail, rfl, same⟩ := exists_cons ended same (by simp)
      obtain ⟨rfl, rfl⟩ := accepts_pure.mp accepts
      exact .inl ⟨_, ⟨closing, rfl, same, rfl⟩, rfl⟩
    next => exact absurd accepts not_accepts_failUnclosed
    next =>
      obtain ⟨field, middle, parsed, accepts⟩ := accepts_bind.mp accepts
      obtain ⟨rfl, rfl⟩ := accepts_pure.mp accepts
      exact .inr ⟨[field], (accepts_structField ended).mp parsed, rfl⟩
  · rintro (⟨_, ⟨closing, rfl, same, rfl⟩, rfl⟩ | ⟨found, derivation, rfl⟩)
    · simp [same]
    · cases derivation with
      | intro same isColon typed separates =>
        have parsed := (accepts_structField ended).mpr (.intro same isColon typed separates)
        simp only [List.headD_cons, same]
        exact accepts_bind.mpr ⟨_, rest, parsed, accepts_pure.mpr ⟨rfl, rfl⟩⟩

theorem accepts_struct {found : Node} :
    struct.Accepts finish input rest found ↔
      ∃ keyword first opening inside closing name fields,
        input = keyword :: first :: opening :: inside ∧ keyword.token.lexeme = .keyword .struct ∧
        first.token.lexeme = .identifier name ∧
        opening.token.lexeme = .punctuation .openingCurlyBracket ∧
        RepeatPhrase (FieldPhrase naming) inside (closing :: rest) fields ∧
        closing.token.lexeme = .punctuation .closingCurlyBracket ∧
        found = .struct (keyword.token.span.through closing.token.span)
          { binder := some ⟨name, first.token.span⟩, fields } := by
  -- the fields are collected up to the bracket that closes the struct
  have collects (opening : Token) {inside rest : List PlacedToken} {result : List Member × Token} :
      (loop (fieldStep opening) []).Accepts finish inside rest result ↔
        ∃ found middle, RepeatPhrase (FieldPhrase naming) inside middle found ∧
          Closes found middle rest result :=
    (accepts_loop ended fun before known _ => steps_fieldStep known opening).trans
      (loop_collects (fun _ _ _ _ _ => accepts_fieldStep ended) (Nat.lt_succ_self _) [])
  simp only [struct, accepts_bind, accepts_pure, Prod.exists]
  constructor
  · rintro ⟨_, _, keywords, _, _, named, _, _, openings, fields, _, _, loops, rfl, rfl⟩
    obtain ⟨keyword, rfl, isKeyword, rfl⟩ := (accepts_consume ended (by simp)).mp keywords
    obtain ⟨first, name, rfl, same, rfl⟩ := (accepts_structName ended).mp named
    obtain ⟨opening, rfl, isOpening, rfl⟩ := (accepts_consume ended (by simp)).mp openings
    obtain ⟨_, _, repeats, closing, rfl, isClosing, pair⟩ := (collects _).mp loops
    cases pair
    exact ⟨keyword, first, opening, _, closing, name, fields, rfl, Token.name_eq_keyword.mp isKeyword,
      same, Token.name_eq_punctuation.mp isOpening, repeats, isClosing, rfl⟩
  · rintro ⟨keyword, first, opening, inside, closing, name, fields, rfl, isKeyword, same, isOpening,
      repeats, isClosing, rfl⟩
    have keywords : (consume (.keyword .struct)).Accepts finish (keyword :: first :: opening :: inside)
        (first :: opening :: inside) keyword.token :=
      consume_accepts (Token.name_eq_keyword.mpr isKeyword)
    have named : (structName keyword.token).Accepts finish (first :: opening :: inside)
        (opening :: inside) (some ⟨name, first.token.span⟩) :=
      (accepts_structName ended).mpr ⟨first, name, rfl, same, rfl⟩
    have openings : (consume (.punctuation .openingCurlyBracket)).Accepts finish (opening :: inside)
        inside opening.token := consume_accepts (Token.name_eq_punctuation.mpr isOpening)
    have loops := (collects opening.token).mpr ⟨fields, _, repeats, closing, rfl, isClosing, rfl⟩
    exact ⟨_, _, keywords, _, _, named, _, _, openings, fields, closing.token, rest, loops, rfl, rfl⟩

end Structs

section Within

variable {inner : Inner} {expressions : Phrase Expr} {nodes : Phrase Node} {bound : Nat}
variable (knows : KnowsBelow inner finish expressions nodes bound)
include ended knows

theorem recognizes_procedureBody (short : input.length < bound) (keyword : Token) :
    (procedureBody inner keyword).Recognizes finish (BodyPhrase expressions nodes) input := by
  intro rest found
  have blocks := recognizes_block ended knows (Nat.lt_succ_of_lt short) rest found
  rw [procedureBody, accepts_token]
  constructor
  · intro accepts
    split at accepts
    next same =>
      obtain ⟨sign, tail, rfl, same⟩ := exists_cons ended same (by simp)
      rw [List.length_cons] at short
      exact .expression same ((knows.expression tail (by omega) _ _).mp (accepts_advance.mp accepts))
    next => exact .block (blocks.mp accepts)
    next => exact absurd accepts not_accepts_fail
  · intro derivation
    cases derivation with
    | @expression sign tail _ _ same derivation =>
      rw [List.length_cons] at short
      simp only [List.headD_cons, same]
      exact accepts_advance.mpr ((knows.expression tail (by omega) _ _).mpr derivation)
    | block derivation =>
      have accepts := blocks.mpr derivation
      cases derivation with
      | intro same =>
        simp only [List.headD_cons, same]
        exact accepts

/-- What comes behind the keyword of a procedure up to its body. -/
theorem accepts_procedureHead {external : Option Token} (short : input.length < bound + 1)
    {found : Node} :
    (procedure inner external).Accepts finish input rest found ↔
      ∃ keyword first tail middle name signature, input = keyword :: first :: tail ∧
        keyword.token.lexeme = .keyword .proc ∧ IsProcedureName first.token.lexeme name ∧
        SignaturePhrase naming (TypePhrase naming) tail middle signature ∧
        (if external.isSome then
          rest = middle ∧ found = .procedure
            (((external.map Token.span).getD keyword.token.span).through signature.span)
            (signature.head (some ⟨name, first.token.span⟩) external.isSome) none
        else ∃ body, BodyPhrase expressions nodes middle rest body ∧ found = .procedure
            (((external.map Token.span).getD keyword.token.span).through body.span)
            (signature.head (some ⟨name, first.token.span⟩) external.isSome) (some body)) := by
  rw [procedure, accepts_bind]
  constructor
  · rintro ⟨_, _, keywords, accepts⟩
    obtain ⟨keyword, rfl, isKeyword, rfl⟩ := (accepts_consume ended (by simp)).mp keywords
    obtain ⟨binder, tail, named, accepts⟩ := accepts_bind.mp accepts
    obtain ⟨first, name, rfl, isName, rfl⟩ := (accepts_procedureName ended).mp named
    rw [accepts_token] at accepts
    split at accepts
    next => exact absurd accepts not_accepts_fail
    next =>
      obtain ⟨signature, middle, signed, accepts⟩ := accepts_bind.mp accepts
      have fewer := signed.length_le
      simp only [List.length_cons] at short
      refine ⟨keyword, first, tail, middle, name, signature, rfl, Token.name_eq_keyword.mp isKeyword,
        isName, (recognizes_signature ended _ _).mp signed, ?_⟩
      split at accepts
      next isExternal =>
        -- a procedure that is defined elsewhere ends behind its signature
        obtain ⟨rfl, rfl⟩ := accepts_pure.mp accepts
        rw [if_pos isExternal]
        exact ⟨rfl, rfl⟩
      next isInternal =>
        obtain ⟨body, behind, parsed, accepts⟩ := accepts_bind.mp accepts
        obtain ⟨rfl, rfl⟩ := accepts_pure.mp accepts
        rw [if_neg isInternal]
        exact ⟨body, (recognizes_procedureBody ended knows (by omega) _ _ _).mp parsed, rfl⟩
  · rintro ⟨keyword, first, tail, middle, name, signature, rfl, isKeyword, isName, derivation, ending⟩
    have signed := (recognizes_signature ended _ _).mpr derivation
    have fewer := signed.length_le
    simp only [List.length_cons] at short
    have keywords : (consume (.keyword .proc)).Accepts finish (keyword :: first :: tail)
        (first :: tail) keyword.token := consume_accepts (Token.name_eq_keyword.mpr isKeyword)
    have named : (procedureName keyword.token).Accepts finish (first :: tail) tail
        (some ⟨name, first.token.span⟩) :=
      (accepts_procedureName ended).mpr ⟨first, name, rfl, isName, rfl⟩
    -- the parser looks for the bracket before it reads the signature
    have opens : (tail.headD finish).token.name = .punctuation .openingRoundBracket := by
      cases derivation with
      | intro same => exact Token.name_eq_punctuation.mpr same
    refine ⟨_, _, keywords, accepts_bind.mpr ⟨_, tail, named, ?_⟩⟩
    rw [accepts_token, if_neg (not_not_intro opens)]
    refine accepts_bind.mpr ⟨signature, middle, signed, ?_⟩
    split at ending
    next isExternal =>
      obtain ⟨rfl, rfl⟩ := ending
      rw [if_pos isExternal]
      exact accepts_pure.mpr ⟨rfl, rfl⟩
    next isInternal =>
      obtain ⟨body, derivation, rfl⟩ := ending
      have parsed := (recognizes_procedureBody ended knows (show middle.length < bound by omega)
        keyword.token _ _).mpr derivation
      rw [if_neg isInternal]
      exact accepts_bind.mpr ⟨body, rest, parsed, accepts_pure.mpr ⟨rfl, rfl⟩⟩

theorem recognizes_initialValue (short : input.length < bound) :
    (initialValue inner).Recognizes finish (InitialPhrase expressions) input := by
  intro rest found
  rw [initialValue, accepts_token]
  constructor
  · intro accepts
    split at accepts
    next same =>
      obtain ⟨first, tail, rfl, same⟩ := exists_cons_of_name ended same (by simp)
      obtain ⟨rfl, rfl⟩ := accepts_pure.mp accepts
      exact .uninitialized (Token.name_eq_punctuation.mp same)
    next => exact .expression ((knows.expression input short _ _).mp accepts)
  · intro derivation
    cases derivation with
    | expression derivation =>
      obtain ⟨first, tail, rfl, start⟩ := knows.expressionStarts _ _ _ derivation
      -- no expression begins with the mark of what has no initial value
      have other : first.token.name ≠ .punctuation .uninitialized := by
        intro same
        rw [IsExpressionStart, Token.name_eq_punctuation.mp same] at start
        simp [beginsExpression] at start
      rw [List.headD_cons, if_neg other]
      exact (knows.expression _ short _ _).mpr derivation
    | uninitialized same => simp [same]

theorem accepts_binding {keyword : PlacedToken} {kind : BindingKind} (short : input.length < bound)
    {found : Node} :
    (binding inner kind).Accepts finish (keyword :: input) rest found ↔
      ∃ first tail middle name annotated value, input = first :: tail ∧
        first.token.lexeme = .identifier name ∧
        LedPhrase (.punctuation .colon) (TypePhrase naming) tail middle annotated ∧
        LedPhrase (.punctuation .assign) (InitialPhrase expressions) middle rest value ∧
        found = .binding (((keyword.token.span.through first.token.span).throughOption
            (annotated.map Spanned.span)).throughOption (value.map Expr.span))
          { kind, binder := ⟨name, first.token.span⟩, type := annotated } value := by
  have types {tail : List PlacedToken} : (led (.punctuation .colon) type).Recognizes finish
      (LedPhrase (.punctuation .colon) (TypePhrase naming)) tail :=
    recognizes_led ended (by simp) fun _ _ => recognizes_type ended
  have values {middle : List PlacedToken} (fewer : middle.length ≤ bound) :
      (led (.punctuation .assign) (initialValue inner)).Recognizes finish
        (LedPhrase (.punctuation .assign) (InitialPhrase expressions)) middle :=
    recognizes_led ended (by simp) fun _ less =>
      recognizes_initialValue ended knows (Nat.lt_of_lt_of_le less fewer)
  rw [binding, accepts_token, accepts_advance, List.tail_cons, List.headD_cons]
  simp only [accepts_bind, accepts_pure]
  -- both parts behind the name are optional, and each is led by a mark of its own
  constructor
  · rintro ⟨_, tail, named, annotated, middle, typed, value, _, initialized, rfl, rfl⟩
    obtain ⟨first, name, rfl, same, rfl⟩ := (accepts_consumeIdentifier ended).mp named
    have fewer := typed.length_le
    rw [List.length_cons] at short
    exact ⟨first, tail, middle, name, annotated, value, rfl, same, (types _ _).mp typed,
      (values (by omega) _ _).mp initialized, rfl⟩
  · rintro ⟨first, tail, middle, name, annotated, value, rfl, same, typed, initialized, rfl⟩
    have typed := (types _ _).mpr typed
    have fewer := typed.length_le
    rw [List.length_cons] at short
    have initialized := (values (by omega) _ _).mpr initialized
    exact ⟨_, tail, consumeIdentifier_accepts same, annotated, middle, typed, value, rest, initialized,
      rfl, rfl⟩

omit knows in
theorem accepts_load {directive : PlacedToken} {found : Node} :
    load.Accepts finish (directive :: input) rest found ↔
      ∃ first path, input = first :: rest ∧ first.token.lexeme = .text path ∧
        found = .load (directive.token.span.through first.token.span) ⟨path, first.token.span⟩ := by
  rw [load, accepts_token, accepts_advance, List.tail_cons, List.headD_cons, accepts_token]
  constructor
  · intro accepts
    split at accepts
    next path same =>
      obtain ⟨first, tail, rfl, same⟩ := exists_cons ended same (by simp)
      obtain ⟨rfl, rfl⟩ := accepts_pure.mp accepts
      exact ⟨first, path, rfl, same, rfl⟩
    next => exact absurd accepts not_accepts_failExpecting
  · rintro ⟨first, path, rfl, same, rfl⟩
    simp [same]

omit ended in
theorem accepts_assignment {sign : PlacedToken} {target : Expr} {operator : Option Operator}
    (short : input.length < bound) {found : Node} :
    (assignment inner target operator).Accepts finish (sign :: input) rest found ↔
      ∃ value, expressions input rest value ∧ target.isPlace = true ∧
        found = .assignment (target.span.through value.span) target
          (operator.map fun applied => ⟨applied, sign.token.span⟩) value := by
  rw [assignment, accepts_token, accepts_advance, List.tail_cons, List.headD_cons, accepts_bind]
  constructor
  · rintro ⟨value, middle, parsed, accepts⟩
    split at accepts
    next isPlace =>
      obtain ⟨rfl, rfl⟩ := accepts_pure.mp accepts
      exact ⟨value, (knows.expression input short _ _).mp parsed, isPlace, rfl⟩
    next => exact absurd accepts not_accepts_fail
  · rintro ⟨value, derivation, isPlace, rfl⟩
    refine ⟨value, rest, (knows.expression input short _ _).mpr derivation, ?_⟩
    rw [if_pos isPlace]
    exact accepts_pure.mpr ⟨rfl, rfl⟩

theorem recognizes_statement
    (knot : ∀ input rest found, expressions input rest found ↔
      GroupedPhrase (OperandPhrase naming expressions nodes) 0 input rest found) :
    (statement inner).RecognizesBelow finish (StatementPhrase expressions) (bound + 1) := by
  intro input short rest found
  have targets (middle : List PlacedToken) (target : Expr) :
      (expressionOf inner).Accepts finish input middle target ↔ expressions input middle target :=
    (recognizes_expressionOf ended knows input short middle target).trans (knot _ _ _).symm
  rw [statement, accepts_bind]
  constructor
  · rintro ⟨target, middle, parsed, accepts⟩
    have derivation := (targets _ _).mp parsed
    have less := parsed.less (takes_expressionOf knows.takes _ ended short)
    -- either a sign of assignment follows the target, or nothing that belongs to the statement
    have assigns {sign : PlacedToken} {tail : List PlacedToken} {operator : Option Operator}
        (same : middle = sign :: tail) (isSign : IsAssignment sign.token.lexeme operator)
        (accepts : (assignment inner target operator).Accepts finish middle rest found) :
        StatementPhrase expressions input rest found := by
      subst same
      rw [List.length_cons] at less
      obtain ⟨value, assigned, isPlace, rfl⟩ :=
        (accepts_assignment knows (show tail.length < bound by omega)).mp accepts
      exact .assignment derivation isSign assigned isPlace
    have plain (same : found = .expression target ∧ rest = middle)
        (other : ∀ applied, ¬ IsAssignment (middle.headD finish).token.lexeme applied) :
        StatementPhrase expressions input rest found := by
      obtain ⟨rfl, rfl⟩ := same
      refine .expression derivation fun first isFirst applied isSign => other applied ?_
      cases rest with
      | nil => cases isFirst
      | cons head tail => exact Option.some.inj isFirst ▸ isSign
    rw [accepts_token] at accepts
    split at accepts
    next same =>
      obtain ⟨sign, tail, cons, same⟩ := exists_cons ended same (by simp)
      exact assigns cons (same ▸ .plain) accepts
    next operator same =>
      split at accepts
      next applied isApplied =>
        obtain ⟨sign, tail, cons, same⟩ := exists_cons ended same (by simp)
        exact assigns cons (same ▸ .compound isApplied) accepts
      next none =>
        refine plain (accepts_pure.mp accepts) fun applied isSign => ?_
        rw [same] at isSign
        cases isSign with
        | compound isApplied => simp [none] at isApplied
    next noAssign noOperator =>
      refine plain (accepts_pure.mp accepts) fun applied isSign => ?_
      generalize kind : (middle.headD finish).token.lexeme = lexeme at isSign
      cases isSign with
      | plain => exact noAssign kind
      | compound => exact noOperator _ kind
  · intro derivation
    cases derivation with
    | @expression _ _ target derivation other =>
      refine ⟨target, rest, (targets _ _).mpr derivation, ?_⟩
      -- the phrase asks that no sign of assignment follows, and the end of the input is none
      have never (applied : Option Operator) :
          ¬ IsAssignment (rest.headD finish).token.lexeme applied := by
        cases rest with
        | nil =>
          rw [List.headD_nil, ended]
          rintro ⟨⟩
        | cons first tail => exact other first rfl applied
      rw [accepts_token]
      split
      next same => exact absurd (by rw [same]; exact .plain) (never none)
      next operator same =>
        split
        next applied isApplied =>
          exact absurd (by rw [same]; exact .compound isApplied) (never (some applied))
        next => exact accepts_pure.mpr ⟨rfl, rfl⟩
      next => exact accepts_pure.mpr ⟨rfl, rfl⟩
    | @assignment sign _ behind _ target value applied derivation isSign assigned isPlace =>
      have parsed := (targets _ _).mpr derivation
      have less := parsed.less (takes_expressionOf knows.takes _ ended short)
      rw [List.length_cons] at less
      have accepts : (assignment inner target applied).Accepts finish (sign :: behind) rest _ :=
        (accepts_assignment knows (by omega)).mpr ⟨value, assigned, isPlace, rfl⟩
      refine ⟨target, sign :: behind, parsed, ?_⟩
      rw [accepts_token, List.headD_cons]
      generalize kind : sign.token.lexeme = lexeme at isSign
      cases isSign with
      | plain => exact accepts
      | compound isApplied => simpa only [isApplied] using accepts

end Within

end Parser

end Cadence
