import Cadence.Proofs.Parse.Grammar
import Cadence.Proofs.Parse.Lasting

/-!
# What parsers accept

A parser accepts some tokens as a result if it yields the result, reports nothing and leaves the
rest of the tokens. That makes every parser a phrase. The phrase of a composed parser is composed of
the phrases of its parts, since reports are never taken back.
-/
namespace Cadence

namespace Parser

variable {α β : Type} {finish : PlacedToken} {input rest : List PlacedToken}

/-- The parser takes tokens from the front of the input and yields the result without a report. -/
def Accepts (parser : Parser α) (finish : PlacedToken) : Phrase α := fun input rest found =>
  parser.run (.fresh finish input) = (some found, .fresh finish rest)

/-- The parser accepts what the phrase says, and nothing else. -/
def Recognizes (parser : Parser α) (finish : PlacedToken) (phrase : Phrase α)
    (input : List PlacedToken) : Prop :=
  ∀ rest found, parser.Accepts finish input rest found ↔ phrase input rest found

/-- The parser recognizes the phrase wherever fewer tokens than given are ahead. -/
def RecognizesBelow (parser : Parser α) (finish : PlacedToken) (phrase : Phrase α) (bound : Nat) :
    Prop :=
  ∀ input : List PlacedToken, input.length < bound → parser.Recognizes finish phrase input

theorem RecognizesBelow.mono {parser : Parser α} {phrase : Phrase α} {bound smaller : Nat}
    (recognizes : parser.RecognizesBelow finish phrase bound) (fewer : smaller ≤ bound) :
    parser.RecognizesBelow finish phrase smaller :=
  fun input short => recognizes input (Nat.lt_of_lt_of_le short fewer)

/-- Nothing is accepted by a parser that fails. -/
theorem not_accepts {parser : Parser α} {found : α}
    (fails : (parser.run (.fresh finish input)).1 = none) :
    ¬ parser.Accepts finish input rest found := by
  intro accepts
  rw [accepts] at fails
  cases fails

theorem Accepts.length_le {parser : Parser α} {found : α}
    (accepts : parser.Accepts finish input rest found) : rest.length ≤ input.length := by
  have reaches := parser.reaches (.fresh finish input)
  rw [accepts] at reaches
  exact reaches.length_le

/-- A state that was reached from a fresh one without a report is fresh. -/
theorem eq_fresh_of_clean {middle : ParseState} (reaches : (ParseState.fresh finish input).Reaches middle)
    (noErrors : middle.errors = []) (clean : middle.exhausted = false) :
    middle = .fresh finish middle.ahead := by
  obtain ⟨ahead, ending, errors, tainted, exhausted⟩ := middle
  have same : ending = finish := reaches.finish_eq
  have honest := reaches.honest (ParseState.isHonest_fresh finish input)
  subst noErrors same clean
  simpa [ParseState.IsHonest, ParseState.fresh] using honest

/-- A state from which a fresh one is reached is fresh, if it was reached from a fresh one. -/
theorem eq_fresh_of_reaches {middle : ParseState}
    (first : (ParseState.fresh finish input).Reaches middle)
    (second : middle.Reaches (.fresh finish rest)) : middle = .fresh finish middle.ahead := by
  apply eq_fresh_of_clean first (List.prefix_nil.mp second.errors_initial)
  cases exhausted : middle.exhausted with
  | false => rfl
  | true => exact absurd (second.exhausted exhausted) (by simp [ParseState.fresh])

/-- A parser that reports nothing and is not given up accepts what it takes. -/
theorem exists_accepts {parser : Parser α} {result : Option α} {state : ParseState}
    (run : parser.run (.fresh finish input) = (result, state)) (noErrors : state.errors = [])
    (clean : state.exhausted = false) :
    ∃ found, result = some found ∧ parser.Accepts finish input state.ahead found := by
  have reaches := parser.reaches (.fresh finish input)
  have fails := parser.fails (.fresh finish input)
  rw [run] at reaches fails
  cases result with
  | none =>
    rcases fails rfl with reported | exhausted
    · simp [noErrors] at reported
    · simp [clean] at exhausted
  | some found =>
    refine ⟨found, rfl, ?_⟩
    rw [Accepts, ← eq_fresh_of_clean reaches noErrors clean]
    exact run

@[simp]
theorem accepts_bind {parser : Parser α} {next : α → Parser β} {found : β} :
    (parser >>= next).Accepts finish input rest found ↔
      ∃ value middle, parser.Accepts finish input middle value ∧
        (next value).Accepts finish middle rest found := by
  constructor
  · intro accepts
    rw [Accepts, run_bind] at accepts
    split at accepts
    next value middle same =>
      have first := parser.reaches (.fresh finish input)
      have second := (next value).reaches middle
      rw [same] at first
      rw [accepts] at second
      have clean := eq_fresh_of_reaches first second
      refine ⟨value, middle.ahead, ?_, ?_⟩
      · rw [Accepts, ← clean]
        exact same
      · rw [Accepts, ← clean]
        exact accepts
    next => cases accepts
  · rintro ⟨value, middle, first, second⟩
    rw [Accepts, run_bind, first]
    exact second

@[simp]
theorem accepts_pure {value found : α} :
    (pure value : Parser α).Accepts finish input rest found ↔ found = value ∧ rest = input := by
  constructor
  · intro accepts
    obtain ⟨same, state⟩ := Prod.mk.inj accepts
    exact ⟨(Option.some.inj same).symm, (congrArg ParseState.ahead state).symm⟩
  · rintro ⟨rfl, rfl⟩
    rfl

@[simp high]
theorem accepts_token {next : Token → Parser β} {found : β} :
    (token >>= next).Accepts finish input rest found ↔
      (next (input.headD finish).token).Accepts finish input rest found :=
  Iff.rfl

@[simp high]
theorem accepts_nextToken {next : Token → Parser β} {found : β} :
    (nextToken >>= next).Accepts finish input rest found ↔
      (next (input.tail.headD finish).token).Accepts finish input rest found :=
  Iff.rfl

@[simp high]
theorem accepts_countAhead {next : Nat → Parser β} {found : β} :
    (countAhead >>= next).Accepts finish input rest found ↔
      (next input.length).Accepts finish input rest found :=
  Iff.rfl

@[simp high]
theorem accepts_advance {next : Unit → Parser β} {found : β} :
    (advance >>= next).Accepts finish input rest found ↔
      (next ()).Accepts finish input.tail rest found :=
  Iff.rfl

@[simp]
theorem not_accepts_fail {error : ParseError} {found : α} :
    ¬ (fail error : Parser α).Accepts finish input rest found :=
  not_accepts rfl

@[simp]
theorem not_accepts_failExpecting {expected : List Expected} {demand : Option (Demand × Token)}
    {found : α} : ¬ (failExpecting expected demand : Parser α).Accepts finish input rest found :=
  not_accepts rfl

@[simp]
theorem not_accepts_failUnclosed {opening : Token} {found : α} :
    ¬ (failUnclosed opening : Parser α).Accepts finish input rest found :=
  not_accepts rfl

@[simp]
theorem not_accepts_exhaust {found : α} :
    ¬ (exhaust : Parser α).Accepts finish input rest found :=
  not_accepts rfl

@[simp]
theorem not_accepts_report {error : ParseError} {found : Unit} :
    ¬ (report error).Accepts finish input rest found := by
  intro accepts
  cases congrArg ParseState.errors (Prod.mk.inj accepts).2

/-- A parser that fails has left a note of it. -/
@[simp]
theorem accepts_attempt {parser : Parser α} {found : Option α} :
    (attempt parser).Accepts finish input rest found ↔
      ∃ value, found = some value ∧ parser.Accepts finish input rest value := by
  constructor
  · intro accepts
    obtain ⟨same, state⟩ := Prod.mk.inj accepts
    have result : (parser.run (.fresh finish input)).1 = found := Option.some.inj same
    cases found with
    | none =>
      have fails := parser.fails (.fresh finish input) result
      rw [show (parser.run (.fresh finish input)).2 = .fresh finish rest from state] at fails
      simp [ParseState.Fails, ParseState.fresh] at fails
    | some value => exact ⟨value, rfl, Prod.ext result state⟩
  · rintro ⟨value, rfl, accepts⟩
    have result := Prod.mk.inj (show ((parser.run (.fresh finish input)).1, (parser.run _).2) = _ from
      accepts)
    exact Prod.ext (congrArg some result.1) result.2

section Tokens

variable (ended : finish.token.lexeme = .endOfInput)
include ended

/-- The current token is one of the input unless it is the end of the input. -/
theorem exists_cons {lexeme : Lexeme} (same : (input.headD finish).token.lexeme = lexeme)
    (present : lexeme ≠ .endOfInput) :
    ∃ first rest, input = first :: rest ∧ first.token.lexeme = lexeme := by
  cases input with
  | nil => exact absurd (same.symm.trans ended) present
  | cons first rest => exact ⟨first, rest, rfl, same⟩

theorem exists_cons_of_name {name : TokenName} (same : (input.headD finish).token.name = name)
    (present : name ≠ .endOfInput) :
    ∃ first rest, input = first :: rest ∧ first.token.name = name := by
  cases input with
  | nil => exact absurd (same.symm.trans (congrArg Lexeme.name ended)) present
  | cons first rest => exact ⟨first, rest, rfl, same⟩

theorem begins_iff {name : TokenName} (present : name ≠ .endOfInput) :
    Begins name input ↔ (input.headD finish).token.name = name := by
  constructor
  · rintro ⟨first, isFirst, same⟩
    cases input with
    | nil => cases isFirst
    | cons head tail => exact Option.some.inj isFirst ▸ same
  · intro same
    obtain ⟨first, rest, rfl, isName⟩ := exists_cons_of_name ended same present
    exact ⟨first, rfl, isName⟩

omit ended in
theorem consume_accepts {first : PlacedToken} {name : TokenName} (same : first.token.name = name) :
    (consume name).Accepts finish (first :: rest) rest first.token := by
  rw [consume, accepts_token, List.headD_cons, if_pos same]
  exact accepts_pure.mpr ⟨rfl, rfl⟩

omit ended in
theorem consumeIdentifier_accepts {first : PlacedToken} {name : String}
    (same : first.token.lexeme = .identifier name) :
    consumeIdentifier.Accepts finish (first :: rest) rest ⟨name, first.token.span⟩ := by
  rw [consumeIdentifier, accepts_token, List.headD_cons]
  simp [same]

theorem accepts_consume {name : TokenName} (present : name ≠ .endOfInput) {found : Token} :
    (consume name).Accepts finish input rest found ↔
      ∃ first, input = first :: rest ∧ first.token.name = name ∧ found = first.token := by
  rw [consume, accepts_token]
  constructor
  · intro accepts
    split at accepts
    next same =>
      obtain ⟨first, tail, rfl, isName⟩ := exists_cons_of_name ended same present
      rw [accepts_advance, accepts_pure] at accepts
      obtain ⟨rfl, rfl⟩ := accepts
      exact ⟨first, rfl, isName, rfl⟩
    next => exact absurd accepts not_accepts_failExpecting
  · rintro ⟨first, rfl, same, rfl⟩
    exact consume_accepts same

theorem accepts_consumeIdentifier {found : Identifier} :
    consumeIdentifier.Accepts finish input rest found ↔
      ∃ first name, input = first :: rest ∧ first.token.lexeme = .identifier name ∧
        found = ⟨name, first.token.span⟩ := by
  rw [consumeIdentifier, accepts_token]
  constructor
  · intro accepts
    split at accepts
    next name same =>
      obtain ⟨first, tail, rfl, isName⟩ := exists_cons ended same (by simp)
      rw [accepts_advance, accepts_pure] at accepts
      obtain ⟨rfl, rfl⟩ := accepts
      exact ⟨first, name, rfl, isName, rfl⟩
    next => exact absurd accepts not_accepts_failExpecting
  · rintro ⟨first, name, rfl, same, rfl⟩
    exact consumeIdentifier_accepts same

theorem accepts_consumeIf {name : TokenName} (present : name ≠ .endOfInput) {found : Bool} :
    (consumeIf name).Accepts finish input rest found ↔
      (∃ first, input = first :: rest ∧ first.token.name = name ∧ found = true) ∨
        ¬ Begins name input ∧ rest = input ∧ found = false := by
  rw [consumeIf, accepts_token, begins_iff ended present]
  constructor
  · intro accepts
    split at accepts
    next same =>
      obtain ⟨first, tail, rfl, isName⟩ := exists_cons_of_name ended same present
      rw [accepts_advance, accepts_pure] at accepts
      obtain ⟨rfl, rfl⟩ := accepts
      exact .inl ⟨first, rfl, isName, rfl⟩
    next other =>
      obtain ⟨rfl, rfl⟩ := accepts_pure.mp accepts
      exact .inr ⟨other, rfl, rfl⟩
  · rintro (⟨first, rfl, same, rfl⟩ | ⟨other, rfl, rfl⟩)
    · rw [List.headD_cons, if_pos same]
      exact accepts_pure.mpr ⟨rfl, rfl⟩
    · rw [if_neg other]
      simp

theorem recognizes_led {mark : TokenName} (present : mark ≠ .endOfInput) {parser : Parser α}
    {phrase : Phrase α} (recognizes : parser.RecognizesBelow finish phrase input.length) :
    (led mark parser).Recognizes finish (LedPhrase mark phrase) input := by
  intro rest found
  rw [led, accepts_bind]
  constructor
  · rintro ⟨isMarked, middle, marked, accepts⟩
    rcases (accepts_consumeIf ended present).mp marked with
      ⟨first, rfl, same, rfl⟩ | ⟨other, rfl, rfl⟩
    · simp only [if_true, accepts_bind, accepts_pure] at accepts
      obtain ⟨value, last, accepts, rfl, rfl⟩ := accepts
      exact .present same ((recognizes middle (by simp) _ _).mp accepts)
    · simp only [Bool.false_eq_true, if_false, accepts_pure] at accepts
      obtain ⟨rfl, rfl⟩ := accepts
      exact .absent other
  · intro derivation
    cases derivation with
    | @present sign inside _ value same phrased =>
      refine ⟨true, inside, (accepts_consumeIf ended present).mpr (.inl ⟨sign, rfl, same, rfl⟩), ?_⟩
      have accepts := (recognizes inside (by simp) rest value).mpr phrased
      simpa using accepts
    | absent other =>
      exact ⟨false, input, (accepts_consumeIf ended present).mpr (.inr ⟨other, rfl, rfl⟩), by simp⟩

omit ended in
theorem Accepts.less {parser : Parser α} {found : α} (accepts : parser.Accepts finish input rest found)
    (takes : parser.Takes (.fresh finish input)) : rest.length < input.length := by
  have less := takes.2 found (by rw [accepts]; rfl)
  rwa [accepts] at less

end Tokens

end Parser

/-- Steps of a loop, from a state of the loop to its result. -/
inductive LoopPhrase {α β : Type} (step : α → Phrase (Parser.Step α β)) : α → Phrase β
  | done {state : α} {input rest : List PlacedToken} {result : β} :
      step state input rest (.done result) → LoopPhrase step state input rest result
  | more {state next : α} {input middle rest : List PlacedToken} {result : β} :
      step state input middle (.more next) → LoopPhrase step next middle rest result →
      LoopPhrase step state input rest result

namespace Parser

variable {α β : Type} {finish : PlacedToken} {input rest : List PlacedToken}
variable (ended : finish.token.lexeme = .endOfInput)
include ended

/-- A budget that exceeds the number of tokens does not matter. -/
theorem accepts_repeatWithin {step : α → Parser (Step α β)} {budget : Nat}
    (short : input.length < budget)
    (steps : ∀ before : ParseState, before.IsEnded → before.ahead.length ≤ input.length →
      Steps step before)
    {state : α} {result : β} :
    (repeatWithin step budget state).Accepts finish input rest result ↔
      LoopPhrase (fun state => (step state).Accepts finish) state input rest result := by
  induction budget generalizing input state with
  | zero => omega
  | succ budget ih =>
    -- a step after which the loop goes on takes a token, and so the rest of the budget suffices
    have less {next : α} {middle : List PlacedToken}
        (accepts : (step state).Accepts finish input middle (.more next)) :
        middle.length < input.length := by
      have takes := (steps (.fresh finish input) ended (Nat.le_refl _) state).2 (.more next)
        (by rw [accepts]; rfl) next rfl
      rwa [accepts] at takes
    have inner {next : α} {middle : List PlacedToken} (fewer : middle.length < input.length) :
        (repeatWithin step budget next).Accepts finish middle rest result ↔
          LoopPhrase (fun state => (step state).Accepts finish) next middle rest result :=
      ih (by omega) fun before known within => steps before known (by omega)
    rw [repeatWithin, accepts_bind]
    constructor
    · rintro ⟨outcome, middle, first, second⟩
      cases outcome with
      | more next => exact .more first ((inner (less first)).mp second)
      | done found =>
        obtain ⟨rfl, rfl⟩ := accepts_pure.mp second
        exact .done first
    · intro loops
      cases loops with
      | done first => exact ⟨.done result, rest, first, accepts_pure.mpr ⟨rfl, rfl⟩⟩
      | @more _ next _ middle _ _ first second =>
        exact ⟨.more next, middle, first, (inner (less first)).mpr second⟩

theorem accepts_loop {step : α → Parser (Step α β)}
    (steps : ∀ before : ParseState, before.IsEnded → before.ahead.length ≤ input.length →
      Steps step before)
    {state : α} {result : β} :
    (loop step state).Accepts finish input rest result ↔
      LoopPhrase (fun state => (step state).Accepts finish) state input rest result :=
  accepts_countAhead.trans (accepts_repeatWithin ended (Nat.lt_succ_self _) steps)

omit ended in
/-- A loop that collects the elements of items until it meets what closes it. -/
theorem loop_collects {step : List α → Parser (Step (List α) β)} {item : Phrase (List α)}
    {close : List α → Phrase β} {bound : Nat}
    (each : ∀ (input rest : List PlacedToken) (elements : List α) (outcome : Step (List α) β),
      input.length < bound → ((step elements).Accepts finish input rest outcome ↔
        (∃ result, close elements input rest result ∧ outcome = .done result) ∨
        ∃ found, item input rest found ∧ outcome = .more (elements ++ found)))
    (short : input.length < bound) (elements : List α) {result : β} :
    LoopPhrase (fun elements => (step elements).Accepts finish) elements input rest result ↔
      ∃ found middle, RepeatPhrase item input middle found ∧
        close (elements ++ found) middle rest result := by
  constructor
  -- the elements so far are a parameter of the loop, those that follow are what the phrase derives
  · intro loops
    induction loops with
    | @done elements input rest result accepts =>
      rcases (each _ _ _ _ short).mp accepts with ⟨_, closes, outcome⟩ | ⟨_, _, outcome⟩
      · cases outcome
        exact ⟨[], input, .done, by simpa using closes⟩
      · cases outcome
    | @more elements next input middle rest result accepts _ ih =>
      rcases (each _ _ _ _ short).mp accepts with ⟨_, _, outcome⟩ | ⟨found, parsed, outcome⟩
      · cases outcome
      · cases outcome
        have fewer := accepts.length_le
        obtain ⟨others, behind, repeats, closes⟩ := ih (by omega)
        exact ⟨found ++ others, behind, .more parsed repeats, by simpa using closes⟩
  · rintro ⟨found, middle, repeats, closes⟩
    induction repeats generalizing elements with
    | done => exact .done ((each _ _ _ _ short).mpr (.inl ⟨result, by simpa using closes, rfl⟩))
    | @more input inside middle found others parsed _ ih =>
      have accepts := (each input inside elements (.more (elements ++ found)) short).mpr
        (.inr ⟨found, parsed, rfl⟩)
      have fewer := accepts.length_le
      exact .more accepts (ih (by omega) (elements ++ found) (by simpa using closes))

end Parser

end Cadence
