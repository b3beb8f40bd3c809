import Cadence.Proofs.Parse.Acceptance
import Cadence.Proofs.Parse.Progress

/-!
# Parsers recognize their phrases

One lemma for each parser, in the order of their definitions: it accepts exactly what its production
says. What nests is recognized below a number of tokens, given the same for what lies within below a
smaller one.
-/
namespace Cadence

open Source (File Span)

@[simp]
theorem Token.name_eq_punctuation {token : Token} {mark : Punctuation} :
    token.name = .punctuation mark ↔ token.lexeme = .punctuation mark := by
  rw [Token.name]
  cases token.lexeme <;> simp [Lexeme.name]

@[simp]
theorem Token.name_eq_keyword {token : Token} {word : Keyword} :
    token.name = .keyword word ↔ token.lexeme = .keyword word := by
  rw [Token.name]
  cases token.lexeme <;> simp [Lexeme.name]

@[simp]
theorem Token.name_eq_endOfInput {token : Token} :
    token.name = .endOfInput ↔ token.lexeme = .endOfInput := by
  rw [Token.name]
  cases token.lexeme <;> simp [Lexeme.name]

/-- Whatever a phrase stands for begins with a token of some kind. -/
def BeginsWith {α : Type} (phrase : Phrase α) (kind : Lexeme → Prop) : Prop :=
  ∀ input rest found, phrase input rest found →
    ∃ first tail, input = first :: tail ∧ kind first.token.lexeme

/-- The kinds of tokens that can begin an element of a list. -/
def IsElementStart (closing : TokenName) (lexeme : Lexeme) : Prop :=
  lexeme.name ≠ closing ∧ lexeme ≠ .endOfInput ∧ lexeme ≠ .punctuation .comma

namespace Parser

variable {finish : PlacedToken} {input rest : List PlacedToken}
variable (ended : finish.token.lexeme = .endOfInput)

section Lists

variable {α : Type} {element : Parser α} {phrase : Phrase α} {opening : Token} {closing : TokenName}

/-- What stands behind an element: a comma, or the closing delimiter, which is not taken. -/
def Separates (closing : TokenName) (input rest : List PlacedToken) : Prop :=
  (∃ comma, input = comma :: rest ∧ comma.token.lexeme = .punctuation .comma) ∨
    ¬ Begins (.punctuation .comma) input ∧ Begins closing input ∧ rest = input

include ended

theorem accepts_listStep (present : closing ≠ .endOfInput)
    (recognizes : element.Recognizes finish phrase input)
    (starts : BeginsWith phrase (IsElementStart closing)) {elements : List α}
    {outcome : Step (List α) (List α × Token)} :
    (commaSeparated.step opening closing element elements).Accepts finish input rest outcome ↔
      (∃ last, input = last :: rest ∧ last.token.name = closing ∧
        outcome = .done (elements, last.token)) ∨
      ∃ found middle, phrase input middle found ∧ Separates closing middle rest ∧
        outcome = .more (elements ++ [found]) := by
  rw [commaSeparated.step, accepts_token]
  constructor
  · intro accepts
    split at accepts
    next same =>
      obtain ⟨last, tail, rfl, isClosing⟩ := exists_cons_of_name ended same present
      obtain ⟨rfl, rfl⟩ := accepts_pure.mp accepts
      exact .inl ⟨last, rfl, isClosing, rfl⟩
    next =>
      split at accepts
      · exact absurd accepts not_accepts_failUnclosed
      split at accepts
      · exact absurd accepts not_accepts_fail
      obtain ⟨found, middle, parsed, accepts⟩ := accepts_bind.mp accepts
      -- behind an element there is a comma, or else the closing delimiter has to follow
      obtain ⟨isComma, behind, separated, accepts⟩ := accepts_bind.mp accepts
      refine .inr ⟨found, middle, (recognizes _ _).mp parsed, ?_⟩
      rcases (accepts_consumeIf ended (by simp)).mp separated with
        ⟨comma, rfl, same, rfl⟩ | ⟨noComma, rfl, rfl⟩
      · simp only [if_true, accepts_pure] at accepts
        obtain ⟨rfl, rfl⟩ := accepts
        exact ⟨.inl ⟨comma, rfl, Token.name_eq_punctuation.mp same⟩, rfl⟩
      · simp only [Bool.false_eq_true, if_false, accepts_token] at accepts
        split at accepts
        next same =>
          obtain ⟨rfl, rfl⟩ := accepts_pure.mp accepts
          exact ⟨.inr ⟨noComma, (begins_iff ended present).mpr same, rfl⟩, rfl⟩
        next =>
          split at accepts
          · exact absurd accepts not_accepts_failUnclosed
          · exact absurd accepts not_accepts_failExpecting
  · rintro (⟨last, rfl, same, rfl⟩ | ⟨found, middle, parsed, separates, rfl⟩)
    · simp [same]
    · -- what begins an element is none of the tokens that are refused in its place
      obtain ⟨first, tail, rfl, notClosing, notEnd, notComma⟩ := starts _ _ _ parsed
      have accepts := (recognizes _ _).mpr parsed
      have notClosing : first.token.name ≠ closing := notClosing
      rw [List.headD_cons, if_neg notClosing, if_neg (by simpa using notEnd),
        if_neg (by simpa using notComma), accepts_bind]
      refine ⟨found, middle, accepts, accepts_bind.mpr ?_⟩
      rcases separates with ⟨comma, rfl, same⟩ | ⟨noComma, closes, rfl⟩
      · refine ⟨true, rest, (accepts_consumeIf ended (by simp)).mpr (.inl ⟨comma, rfl, ?_, rfl⟩), ?_⟩
        · exact Token.name_eq_punctuation.mpr same
        · simp
      · refine ⟨false, rest, (accepts_consumeIf ended (by simp)).mpr (.inr ⟨noComma, rfl, rfl⟩), ?_⟩
        have same := (begins_iff ended present).mp closes
        rw [if_neg (by simp), accepts_token, if_pos same, accepts_pure]
        exact ⟨rfl, rfl⟩

omit ended in
/-- Where the closing delimiter comes next, a list ends. -/
theorem nil_of_closes (starts : BeginsWith phrase (IsElementStart closing)) {elements : List α}
    {last : Token} (listed : ListPhrase closing phrase input rest (elements, last))
    (closes : Begins closing input) :
    ∃ first, input = first :: rest ∧ first.token.name = closing ∧ elements = [] ∧
      last = first.token := by
  obtain ⟨head, isHead, same⟩ := closes
  have never {middle : List PlacedToken} {found : α} (parsed : phrase input middle found) : False := by
    obtain ⟨first, tail, rfl, notClosing, _⟩ := starts _ _ _ parsed
    exact notClosing (Option.some.inj isHead ▸ same)
  cases listed with
  | @close first _ isClosing => exact ⟨first, rfl, isClosing, rfl, rfl⟩
  | last parsed => exact (never parsed).elim
  | more parsed => exact (never parsed).elim

theorem listPhrase_of_loop (present : closing ≠ .endOfInput) {bound : Nat}
    (recognizes : element.RecognizesBelow finish phrase bound)
    (starts : BeginsWith phrase (IsElementStart closing)) {elements : List α}
    {result : List α × Token}
    (loops : LoopPhrase (fun elements =>
      (commaSeparated.step opening closing element elements).Accepts finish) elements input rest result)
    (short : input.length < bound) :
    ∃ others, result.1 = elements ++ others ∧
      ListPhrase closing phrase input rest (others, result.2) := by
  induction loops with
  | @done elements input rest result accepts =>
    rcases (accepts_listStep ended present (recognizes _ short) starts).mp accepts with
      ⟨last, rfl, same, outcome⟩ | ⟨_, _, _, _, outcome⟩
    · cases outcome
      exact ⟨[], by simp, .close same⟩
    · cases outcome
  | @more elements next input middle rest result accepts _ ih =>
    have fewer := accepts.length_le
    obtain ⟨others, all, listed⟩ := ih (by omega)
    rcases (accepts_listStep ended present (recognizes _ short) starts).mp accepts with
      ⟨_, _, _, outcome⟩ | ⟨found, behind, parsed, separates, outcome⟩
    · cases outcome
    · cases outcome
      refine ⟨found :: others, by simpa using all, ?_⟩
      rcases separates with ⟨comma, rfl, same⟩ | ⟨_, closes, rfl⟩
      · exact .more parsed same listed
      -- no comma was read, so that the rest of the loop can only have read the closing delimiter
      · obtain ⟨last, rfl, isClosing, rfl, token⟩ := nil_of_closes starts listed closes
        rw [token]
        exact .last parsed isClosing

theorem loop_of_listPhrase (present : closing ≠ .endOfInput) (different : closing ≠ .punctuation .comma)
    {bound : Nat} (recognizes : element.RecognizesBelow finish phrase bound)
    (starts : BeginsWith phrase (IsElementStart closing)) {result : List α × Token}
    (listed : ListPhrase closing phrase input rest result) (short : input.length < bound)
    (elements : List α) :
    LoopPhrase (fun elements =>
        (commaSeparated.step opening closing element elements).Accepts finish) elements input rest
      (elements ++ result.1, result.2) := by
  induction listed generalizing elements with
  | @close last rest same =>
    refine .done ((accepts_listStep ended present (recognizes _ short) starts).mpr (.inl ?_))
    exact ⟨last, rfl, same, by simp⟩
  | @last last input rest found parsed same =>
    have closes : Begins closing (last :: rest) := ⟨last, rfl, same⟩
    -- the step looks for a comma before it looks for the closing delimiter
    have noComma : ¬ Begins (.punctuation .comma) (last :: rest) := by
      rintro ⟨first, isFirst, isComma⟩
      cases isFirst
      exact different (same.symm.trans isComma)
    have fewer := ((recognizes _ short _ _).mpr parsed).length_le
    refine .more ((accepts_listStep ended present (recognizes _ short) starts).mpr (.inr
      ⟨found, last :: rest, parsed, .inr ⟨noComma, closes, rfl⟩, rfl⟩)) (.done ?_)
    refine (accepts_listStep ended present (recognizes _ (by omega)) starts).mpr (.inl ?_)
    exact ⟨last, rfl, same, by simp⟩
  | @more comma input middle rest found others last parsed same listed ih =>
    have fewer := ((recognizes _ short _ _).mpr parsed).length_le
    rw [List.length_cons] at fewer
    refine .more ((accepts_listStep ended present (recognizes _ short) starts).mpr (.inr
      ⟨found, comma :: middle, parsed, .inl ⟨comma, rfl, same⟩, rfl⟩)) ?_
    simpa using ih (by omega) (elements ++ [found])

theorem recognizes_commaSeparated (present : closing ≠ .endOfInput)
    (different : closing ≠ .punctuation .comma)
    (takes : element.TakesBelow (input.length + 1))
    (recognizes : element.RecognizesBelow finish phrase (input.length + 1))
    (starts : BeginsWith phrase (IsElementStart closing)) :
    (commaSeparated opening closing element).Recognizes finish (ListPhrase closing phrase) input := by
  intro rest result
  rw [commaSeparated, accepts_loop ended]
  · constructor
    · intro loops
      obtain ⟨others, same, listed⟩ :=
        listPhrase_of_loop ended present recognizes starts loops (Nat.lt_succ_self _)
      have all : result.1 = others := same
      rwa [← all] at listed
    · intro listed
      exact loop_of_listPhrase ended present different recognizes starts listed (Nat.lt_succ_self _) []
  · exact fun before known fewer =>
      steps_commaSeparated known present (takes before known (by omega))

end Lists

section Types

include ended

theorem accepts_qualifiedType {found : Annotation} :
    qualifiedType.Accepts finish input rest found ↔
      ∃ first name, input = first :: rest ∧ first.token.lexeme = .identifier name ∧
        ¬ Begins (.punctuation .dot) rest ∧
        found = ⟨.named ⟨name, first.token.span⟩ none, first.token.span⟩ := by
  rw [qualifiedType, accepts_bind]
  constructor
  · rintro ⟨path, middle, accepts, behind⟩
    obtain ⟨first, name, rfl, same, rfl⟩ := (accepts_consumeIdentifier ended).mp accepts
    rw [accepts_token] at behind
    split at behind
    next =>
      -- behind a dot the parser reads a further name and then reports the path in any case
      obtain ⟨_, _, _, failed⟩ := accepts_bind.mp behind
      exact absurd failed not_accepts_fail
    next noDot =>
      obtain ⟨rfl, rfl⟩ := accepts_pure.mp behind
      exact ⟨first, name, rfl, same, fun dot => noDot ((begins_iff ended (by simp)).mp dot), rfl⟩
  · rintro ⟨first, name, rfl, same, noDot, rfl⟩
    refine ⟨_, rest, (accepts_consumeIdentifier ended).mpr ⟨first, name, rfl, same, rfl⟩, ?_⟩
    rw [accepts_token, if_neg fun dot => noDot ((begins_iff ended (by simp)).mpr dot)]
    exact accepts_pure.mpr ⟨rfl, rfl⟩

/-- The current token can be a name, and a colon comes behind it. -/
theorem beginsNamed_iff : BeginsNamed Lexeme.parameterName? input ↔
    ((input.headD finish).token.lexeme.parameterName?).isSome ∧
      (input.tail.headD finish).token.name = .punctuation .colon := by
  constructor
  · rintro ⟨first, colon, rest, rfl, isName, isColon⟩
    exact ⟨isName, Token.name_eq_punctuation.mpr isColon⟩
  · rintro ⟨isName, isColon⟩
    obtain ⟨colon, rest, behind, same⟩ := exists_cons_of_name ended isColon (by simp)
    cases input with
    | nil => cases behind
    | cons first tail => exact ⟨first, colon, rest, by simpa using behind, isName, by simpa using same⟩

theorem recognizes_parameterName? :
    parameterName?.Recognizes finish (NamePhrase Lexeme.parameterName?) input := by
  intro rest found
  rw [parameterName?, accepts_token]
  constructor
  · intro accepts
    -- a name is only taken for one if a colon stands behind it, which is looked at ahead
    have decided : BeginsNamed Lexeme.parameterName? input ↔ _ := beginsNamed_iff ended
    split at accepts
    next noName =>
      obtain ⟨rfl, rfl⟩ := accepts_pure.mp accepts
      exact .absent fun named => absurd (decided.mp named).1 (by rw [noName]; exact Bool.false_ne_true)
    next name isName =>
      rw [accepts_nextToken] at accepts
      split at accepts
      next isColon =>
        obtain ⟨first, colon, tail, rfl, _, same⟩ := decided.mpr ⟨by rw [isName]; rfl, isColon⟩
        obtain ⟨rfl, rfl⟩ := accepts_pure.mp accepts
        exact .present isName same
      next noColon =>
        obtain ⟨rfl, rfl⟩ := accepts_pure.mp accepts
        exact .absent fun named => noColon (decided.mp named).2
  · intro derivation
    cases derivation with
    | @present first colon _ name isName isColon => simp [isName, isColon]
    | absent noName =>
      rw [beginsNamed_iff ended] at noName
      split
      next => exact accepts_pure.mpr ⟨rfl, rfl⟩
      next name isName =>
        rw [accepts_nextToken, if_neg fun isColon => noName ⟨by rw [isName]; rfl, isColon⟩]
        exact accepts_pure.mpr ⟨rfl, rfl⟩

omit ended in
theorem accepts_membersOf {input rest : List PlacedToken} {parameters : List Parameter} {found : List Member × Bool} :
    (membersOf parameters).Accepts finish input rest found ↔
      DeclaresMembers parameters found ∧ rest = input := by
  -- varargs are let through at the end only
  match parameters with
  | [] =>
    rw [membersOf, accepts_pure]
    constructor
    · rintro ⟨rfl, rfl⟩
      exact ⟨.none, rfl⟩
    · rintro ⟨derivation, rfl⟩
      cases derivation
      exact ⟨rfl, rfl⟩
  | [.varargs _] =>
    rw [membersOf, accepts_pure]
    constructor
    · rintro ⟨rfl, rfl⟩
      exact ⟨.varargs, rfl⟩
    · rintro ⟨derivation, rfl⟩
      cases derivation
      exact ⟨rfl, rfl⟩
  | .varargs _ :: _ :: _ =>
    constructor
    · exact fun accepts => absurd accepts not_accepts_fail
    · rintro ⟨derivation, _⟩
      cases derivation
  | .member member :: others =>
    rw [membersOf, accepts_bind]
    constructor
    · rintro ⟨⟨members, isVariadic⟩, middle, accepts, behind⟩
      obtain ⟨derivation, rfl⟩ := accepts_membersOf.mp accepts
      obtain ⟨rfl, rfl⟩ := accepts_pure.mp behind
      exact ⟨.member derivation, rfl⟩
    · rintro ⟨derivation, rfl⟩
      cases derivation with
      | member derivation =>
        exact ⟨_, rest, accepts_membersOf.mpr ⟨derivation, rfl⟩, accepts_pure.mpr ⟨rfl, rfl⟩⟩

omit ended in
/-- The tokens that can begin a type. -/
def IsTypeStart (lexeme : Lexeme) : Prop :=
  lexeme = .operator .asterisk ∨ (∃ type, lexeme = .builtinType type) ∨
    (∃ name, lexeme = .identifier name) ∨ lexeme = .punctuation .openingRoundBracket

omit ended in
theorem beginsWith_typePhrase (naming : Lexeme → Option String) :
    BeginsWith (TypePhrase naming) IsTypeStart := by
  intro input rest found derivation
  cases derivation with
  | @pointer first tail _ _ same => exact ⟨first, tail, rfl, .inl same⟩
  | @builtin first _ type same => exact ⟨first, rest, rfl, .inr (.inl ⟨type, same⟩)⟩
  | @named first _ name same => exact ⟨first, rest, rfl, .inr (.inr (.inl ⟨name, same⟩))⟩
  | procedure signature =>
    cases signature with
    | @intro first tail _ _ _ _ _ _ _ same => exact ⟨first, tail, rfl, .inr (.inr (.inr same))⟩

variable {type : Parser Annotation} {phrase : Phrase Annotation} {bound : Nat}
variable (starts : BeginsWith phrase IsTypeStart)

section Parameters

include starts
omit ended

/-- The tokens that can begin the declaration of a parameter. -/
theorem beginsWith_member {middle : List PlacedToken} {name : Option Identifier}
    {annotated : Annotation} (named : NamePhrase Lexeme.parameterName? input middle name)
    (typed : phrase middle rest annotated) :
    ∃ first tail, input = first :: tail ∧
      (IsTypeStart first.token.lexeme ∨ first.token.lexeme = .punctuation .wildcard) := by
  cases named with
  | @present first colon tail name isName isColon =>
    refine ⟨first, colon :: middle, rfl, ?_⟩
    unfold Lexeme.parameterName? at isName
    split at isName
    next same => exact .inl (.inr (.inr (.inl ⟨_, same⟩)))
    next same => exact .inr same
    next => cases isName
  | absent =>
    obtain ⟨first, tail, rfl, start⟩ := starts _ _ _ typed
    exact ⟨first, tail, rfl, .inl start⟩

theorem beginsWith_parameterPhrase :
    BeginsWith (ParameterPhrase Lexeme.parameterName? phrase)
      (IsElementStart (.punctuation .closingRoundBracket)) := by
  intro input rest found derivation
  cases derivation with
  | @varargs mark _ same => exact ⟨mark, rest, rfl, by simp [IsElementStart, same, Lexeme.name]⟩
  | member named typed =>
    obtain ⟨first, tail, rfl, start⟩ := beginsWith_member starts named typed
    refine ⟨first, tail, rfl, ?_⟩
    rcases start with (same | ⟨_, same⟩ | ⟨_, same⟩ | same) | same <;>
      simp [IsElementStart, same, Lexeme.name]

end Parameters

variable (recognizes : type.RecognizesBelow finish phrase bound)
include starts recognizes

theorem recognizes_parameter : (parameter type).RecognizesBelow finish
    (ParameterPhrase Lexeme.parameterName? phrase) bound := by
  intro input short rest found
  rw [parameter, accepts_token]
  constructor
  · intro accepts
    split at accepts
    next same =>
      obtain ⟨mark, tail, rfl, isMark⟩ := exists_cons_of_name ended same (by simp)
      obtain ⟨rfl, rfl⟩ := accepts_pure.mp accepts
      exact .varargs (Token.name_eq_punctuation.mp isMark)
    next =>
      obtain ⟨name, middle, named, accepts⟩ := accepts_bind.mp accepts
      obtain ⟨annotated, behind, typed, accepts⟩ := accepts_bind.mp accepts
      obtain ⟨rfl, rfl⟩ := accepts_pure.mp accepts
      have fewer := named.length_le
      refine .member ((recognizes_parameterName? ended _ _).mp named) ?_
      exact (recognizes middle (by omega) _ _).mp typed
  · intro derivation
    cases derivation with
    | varargs same => simp [same]
    | @member _ middle _ name annotated named typed =>
      -- the parser decides by the first token, which begins neither a name nor a type if it is the
      -- mark
      have noVarargs : (input.headD finish).token.name ≠ .punctuation .varargs := by
        obtain ⟨first, tail, rfl, start⟩ := beginsWith_member starts named typed
        rw [ne_eq, Token.name_eq_punctuation, List.headD_cons]
        rcases start with (same | ⟨_, same⟩ | ⟨_, same⟩ | same) | same <;> simp [same]
      have accepts := (recognizes_parameterName? ended _ _).mpr named
      have fewer := accepts.length_le
      rw [if_neg noVarargs, accepts_bind]
      refine ⟨name, middle, accepts, accepts_bind.mpr ⟨annotated, rest, ?_, ?_⟩⟩
      · exact (recognizes middle (by omega) _ _).mpr typed
      · exact accepts_pure.mpr ⟨rfl, rfl⟩

theorem recognizes_signatureOf (takes : type.TakesBelow bound) :
    (signatureOf type).RecognizesBelow finish (SignaturePhrase Lexeme.parameterName? phrase)
      (bound + 1) := by
  intro input short rest found
  -- the types in a signature are shorter than it, and so they are recognized already
  have listed (opening : Token) {inside : List PlacedToken} (fewer : inside.length < bound) :
      (commaSeparated opening (.punctuation .closingRoundBracket) (parameter type)).Recognizes finish
        (ListPhrase (.punctuation .closingRoundBracket)
          (ParameterPhrase Lexeme.parameterName? phrase)) inside :=
    recognizes_commaSeparated ended (by simp) (by simp) ((takes_parameter takes).mono fewer)
      ((recognizes_parameter ended starts recognizes).mono fewer) (beginsWith_parameterPhrase starts)
  simp only [signatureOf, accepts_bind, accepts_membersOf, accepts_pure, Prod.exists,
    accepts_consume ended (show (.punctuation .openingRoundBracket : TokenName) ≠ .endOfInput by simp)]
  constructor
  · rintro ⟨_, inside, ⟨opening, rfl, same, rfl⟩, parameters, closing, middle, list, members,
      isVariadic, _, ⟨declares, rfl⟩, result, _, led, rfl, rfl⟩
    have fewer := list.length_le
    rw [List.length_cons] at short
    refine .intro (Token.name_eq_punctuation.mp same) ((listed _ (by omega) _ _).mp list) declares ?_
    exact (recognizes_led ended (by simp) (recognizes.mono (by omega)) _ _).mp led
  · intro derivation
    cases derivation with
    | @intro opening inside middle _ parameters closing members isVariadic result same list declares
        led =>
      rw [List.length_cons] at short
      have list := (listed opening.token (by omega) _ _).mpr list
      have fewer := list.length_le
      have led := (recognizes_led ended (by simp) (recognizes.mono (by omega)) _ _).mpr led
      exact ⟨opening.token, inside, ⟨opening, rfl, Token.name_eq_punctuation.mpr same, rfl⟩,
        parameters, closing, middle, list, members, isVariadic, middle, ⟨declares, rfl⟩, result, rest,
        led, rfl, rfl⟩

end Types

section Types

include ended

theorem recognizes_typeOf {type : Parser Annotation} {bound : Nat} (takes : type.TakesBelow bound)
    (recognizes : type.RecognizesBelow finish (TypePhrase Lexeme.parameterName?) bound) :
    (typeOf type).RecognizesBelow finish (TypePhrase Lexeme.parameterName?) (bound + 1) := by
  have signatures := recognizes_signatureOf ended (beginsWith_typePhrase _) recognizes takes
  intro input short rest found
  rw [typeOf, accepts_token]
  constructor
  · intro accepts
    -- the first token decides which kind of type it is
    split at accepts
    next same =>
      obtain ⟨sign, tail, rfl, same⟩ := exists_cons ended same (by simp)
      obtain ⟨target, middle, parsed, accepts⟩ := accepts_bind.mp (accepts_advance.mp accepts)
      obtain ⟨rfl, rfl⟩ := accepts_pure.mp accepts
      exact .pointer same ((recognizes tail (by simpa using short) _ _).mp parsed)
    next same =>
      obtain ⟨first, tail, rfl, same⟩ := exists_cons ended same (by simp)
      obtain ⟨rfl, rfl⟩ := accepts_pure.mp accepts
      exact .builtin same
    next =>
      obtain ⟨first, name, rfl, same, noDot, rfl⟩ := (accepts_qualifiedType ended).mp accepts
      exact .named same noDot
    next =>
      obtain ⟨signature, middle, parsed, accepts⟩ := accepts_bind.mp accepts
      obtain ⟨rfl, rfl⟩ := accepts_pure.mp accepts
      exact .procedure ((signatures input short _ _).mp parsed)
    next => exact absurd accepts not_accepts_failExpecting
  · intro derivation
    cases derivation with
    | @pointer sign tail _ target same derivation =>
      have parsed := (recognizes tail (by simpa using short) _ _).mpr derivation
      simp only [List.headD_cons, same, accepts_advance, List.tail_cons]
      exact accepts_bind.mpr ⟨target, rest, parsed, accepts_pure.mpr ⟨rfl, rfl⟩⟩
    | builtin same => simp [same]
    | @named first _ name same noDot =>
      simp only [List.headD_cons, same]
      exact (accepts_qualifiedType ended).mpr ⟨first, name, rfl, same, noDot, rfl⟩
    | @procedure _ _ signature derivation =>
      have parsed := (signatures input short _ _).mpr derivation
      cases derivation with
      | intro same =>
        simp only [List.headD_cons, same]
        exact accepts_bind.mpr ⟨_, rest, parsed, accepts_pure.mpr ⟨rfl, rfl⟩⟩

theorem recognizes_typeWithin (depth : Nat) :
    (typeWithin depth).RecognizesBelow finish (TypePhrase Lexeme.parameterName?) depth := by
  induction depth with
  | zero => exact fun _ short => absurd short (Nat.not_lt_zero _)
  | succ depth ih => exact recognizes_typeOf ended (takes_typeWithin depth) ih

theorem recognizes_type :
    Parser.type.Recognizes finish (TypePhrase Lexeme.parameterName?) input :=
  -- each nested type has fewer tokens ahead of it, hence their number is depth enough
  fun rest found => accepts_countAhead.trans
    (recognizes_typeWithin ended _ input (Nat.lt_succ_self _) rest found)

theorem recognizes_signature : signature.Recognizes finish
    (SignaturePhrase Lexeme.parameterName? (TypePhrase Lexeme.parameterName?)) input :=
  recognizes_signatureOf ended (beginsWith_typePhrase _)
    (fun _ _ => recognizes_type ended) (fun _ known _ => takes_type known) input (Nat.lt_succ_self _)

end Types

end Parser

end Cadence
