import Cadence.Parse.Basic

/-!
# Runs that are not given up

`Parser.Lasts` says that the run of a parser from some state is not given up, and what holds behind
it if it succeeds. What matters is how many tokens are left: a loop whose steps take tokens, and
parts that are nested behind a token, end within the bounds they are given.
-/
namespace Cadence

namespace ParseState

/-- Behind the tokens of a state stands the end of the input. -/
def IsEnded (state : ParseState) : Prop := state.finish.token.lexeme = .endOfInput

variable {before after : ParseState}

theorem IsEnded.of_reaches (ended : before.IsEnded) (reaches : before.Reaches after) :
    after.IsEnded := by
  rw [IsEnded, reaches.finish_eq]
  exact ended

theorem Reaches.length_le (reaches : before.Reaches after) :
    after.ahead.length ≤ before.ahead.length :=
  reaches.ahead_suffix.length_le

/-- A token that is not the end of the input can be taken. -/
theorem IsEnded.length_tail_lt (ended : before.IsEnded) {lexeme : Lexeme}
    (same : before.current.token.lexeme = lexeme) (present : lexeme ≠ .endOfInput) :
    before.ahead.tail.length < before.ahead.length := by
  cases tokens : before.ahead with
  | nil =>
    rw [current, tokens] at same
    exact absurd (same.symm.trans ended) present
  | cons first rest => simp

end ParseState

namespace Parser

variable {α β : Type} {before : ParseState} {post : β → ParseState → Prop}

/-- The run of a parser is not given up. If it succeeds, something holds of the result and of the
state behind it. -/
def Lasts (parser : Parser α) (before : ParseState) (post : α → ParseState → Prop) : Prop :=
  (parser.run before).2.exhausted = before.exhausted ∧
    ∀ result ∈ (parser.run before).1, post result (parser.run before).2

/-- The run of a parser is not given up. -/
def Ends (parser : Parser α) (before : ParseState) : Prop := parser.Lasts before fun _ _ => True

/-- The run of a parser is not given up, and it succeeds only after having taken a token. -/
def Takes (parser : Parser α) (before : ParseState) : Prop :=
  parser.Lasts before fun _ after => after.ahead.length < before.ahead.length

/-- A parser takes a token wherever fewer tokens than given are ahead. -/
def TakesBelow (parser : Parser α) (bound : Nat) : Prop :=
  ∀ before : ParseState, before.IsEnded → before.ahead.length < bound → parser.Takes before

theorem TakesBelow.mono {parser : Parser α} {bound smaller : Nat} (takes : parser.TakesBelow bound)
    (fewer : smaller ≤ bound) : parser.TakesBelow smaller :=
  fun before ended short => takes before ended (Nat.lt_of_lt_of_le short fewer)

namespace Lasts

theorem pure {result : α} {post : α → ParseState → Prop} (known : post result before) :
    Lasts (pure result) before post :=
  ⟨rfl, fun _ same => Option.some.inj same ▸ known⟩

theorem bind {parser : Parser α} {middle : α → ParseState → Prop} {next : α → Parser β}
    (first : parser.Lasts before middle)
    (second : ∀ result after, before.Reaches after → middle result after →
      (next result).Lasts after post) :
    (parser >>= next).Lasts before post := by
  have reaches := parser.reaches before
  obtain ⟨exhausted, known⟩ := first
  rw [Lasts, run_bind]
  split
  next value state same =>
    rw [same] at reaches exhausted known
    obtain ⟨further, results⟩ := second value state reaches (known value rfl)
    exact ⟨further.trans exhausted, results⟩
  next state same =>
    rw [same] at exhausted
    exact ⟨exhausted, by simp⟩

theorem mono {parser : Parser α} {post weaker : α → ParseState → Prop}
    (lasts : parser.Lasts before post)
    (implies : ∀ result after, before.Reaches after → post result after → weaker result after) :
    parser.Lasts before weaker :=
  ⟨lasts.1, fun result found => implies result _ (parser.reaches before) (lasts.2 result found)⟩

theorem ends {parser : Parser α} {post : α → ParseState → Prop} (lasts : parser.Lasts before post) :
    parser.Ends before :=
  lasts.mono fun _ _ _ _ => trivial

theorem ite {condition : Prop} [Decidable condition] {left right : Parser β}
    (first : condition → left.Lasts before post) (second : ¬ condition → right.Lasts before post) :
    (if condition then left else right).Lasts before post := by
  split
  next holds => exact first holds
  next fails => exact second fails

/-- What only looks at the state leaves it as it is. -/
theorem look {result : ParseState → α} {next : α → Parser β}
    (known : (next (result before)).Lasts before post) : (Parser.look result >>= next).Lasts before post :=
  known

theorem token {next : Token → Parser β} (known : (next before.current.token).Lasts before post) :
    (token >>= next).Lasts before post :=
  known

theorem fail (error : ParseError) : (fail error : Parser β).Lasts before post :=
  ⟨rfl, fun _ found => nomatch found⟩

theorem failExpecting (expected : List Expected) (demand : Option (Demand × Token)) :
    (failExpecting expected demand : Parser β).Lasts before post :=
  token (fail _)

theorem failUnclosed (opening : Token) : (failUnclosed opening : Parser β).Lasts before post :=
  token (fail _)

theorem report {error : ParseError} {next : Unit → Parser β}
    (known : ∀ after, after.finish = before.finish → after.ahead = before.ahead →
      (next ()).Lasts after post) :
    (report error >>= next).Lasts before post := by
  have reported : (Parser.report error).Lasts before fun _ after =>
      after.finish = before.finish ∧ after.ahead = before.ahead :=
    ⟨rfl, fun _ _ => ⟨rfl, rfl⟩⟩
  exact bind reported fun _ after _ same => known after same.1 same.2

end Lasts

section Sequence

variable {parser : Parser α} {next : α → Parser β} (ended : before.IsEnded)
include ended

theorem Ends.bind (ends : parser.Ends before)
    (second : ∀ result (after : ParseState), after.IsEnded →
      after.ahead.length ≤ before.ahead.length → (next result).Lasts after post) :
    (parser >>= next).Lasts before post :=
  Lasts.bind ends fun result after reaches _ =>
    second result after (ended.of_reaches reaches) reaches.length_le

theorem Takes.bind (takes : parser.Takes before)
    (second : ∀ result (after : ParseState), after.IsEnded →
      after.ahead.length < before.ahead.length → (next result).Lasts after post) :
    (parser >>= next).Lasts before post :=
  Lasts.bind takes fun result after reaches less => second result after (ended.of_reaches reaches) less

end Sequence

theorem Ends.below {parser : Parser α} (ends : parser.Ends before) {bound : Nat}
    (less : before.ahead.length < bound) :
    parser.Lasts before fun _ after => after.ahead.length < bound :=
  Lasts.mono ends fun _ _ reaches _ => Nat.lt_of_le_of_lt reaches.length_le less

theorem ends_advance : advance.Ends before := ⟨rfl, fun _ _ => trivial⟩

section Tokens

variable (ended : before.IsEnded)
include ended

theorem takes_advance {lexeme : Lexeme} (same : before.current.token.lexeme = lexeme)
    (present : lexeme ≠ .endOfInput) : advance.Takes before :=
  ⟨rfl, fun _ _ => ended.length_tail_lt same present⟩

/-- A token of a kind other than the end of the input can be taken. -/
theorem takes_named {name : TokenName} (same : before.current.token.name = name)
    (present : name ≠ .endOfInput) : advance.Takes before := by
  -- the end of the input is the only token that is never taken
  refine takes_advance ended rfl fun last => present ?_
  rw [← same, Token.name, last]
  rfl

theorem takes_consume {name : TokenName} (present : name ≠ .endOfInput) :
    (consume name).Takes before := by
  refine .token (.ite (fun same => ?_) fun _ => .failExpecting _ _)
  exact (takes_named ended same present).bind ended fun _ _ _ less => .pure less

theorem takes_consumeIdentifier : consumeIdentifier.Takes before := by
  apply Lasts.token
  split
  next name same =>
    exact (takes_advance ended same (by simp)).bind ended fun _ _ _ less => .pure less
  next => exact .failExpecting _ _

theorem lasts_consumeIf {name : TokenName} (present : name ≠ .endOfInput) :
    (consumeIf name).Lasts before fun found after =>
      found = true → after.ahead.length < before.ahead.length := by
  refine .token (.ite (fun same => ?_) fun _ => .pure (by simp))
  exact (takes_named ended same present).bind ended fun _ _ _ less => .pure fun _ => less

theorem ends_led (mark : TokenName) (present : mark ≠ .endOfInput) {parser : Parser α}
    (ends : ∀ after : ParseState, after.IsEnded → after.ahead.length < before.ahead.length →
      parser.Ends after) :
    (led mark parser).Ends before := by
  -- what comes behind the mark is parsed only where the mark was taken
  refine Lasts.bind (lasts_consumeIf ended present) fun found after reaches less => ?_
  refine .ite (fun isFound => ?_) fun _ => .pure trivial
  have afterEnded := ended.of_reaches reaches
  exact (ends after afterEnded (less isFound)).bind afterEnded fun _ _ _ _ => .pure trivial

/-- A step of a loop that goes on only after having taken a token. -/
def Steps (step : α → Parser (Step α β)) (before : ParseState) : Prop :=
  ∀ state, (step state).Lasts before fun outcome after =>
    ∀ next, outcome = .more next → after.ahead.length < before.ahead.length

theorem ends_repeatWithin {step : α → Parser (Step α β)} {budget : Nat}
    (short : before.ahead.length < budget)
    (steps : ∀ after : ParseState, after.IsEnded → after.ahead.length ≤ before.ahead.length →
      Steps step after)
    (state : α) : (repeatWithin step budget state).Ends before := by
  -- every step that goes on has taken a token, and the budget exceeds their number
  induction budget generalizing before state with
  | zero => omega
  | succ budget ih =>
    refine Lasts.bind (steps before ended (Nat.le_refl _) state) fun outcome after reaches takes => ?_
    cases outcome with
    | more state =>
      have less := takes state rfl
      refine ih (ended.of_reaches reaches) (by omega) (fun last lastEnded shorter => ?_) state
      exact steps last lastEnded (by omega)
    | done result => exact .pure trivial

theorem ends_loop {step : α → Parser (Step α β)} {state : α}
    (steps : ∀ after : ParseState, after.IsEnded → after.ahead.length ≤ before.ahead.length →
      Steps step after) :
    (loop step state).Ends before :=
  .look (ends_repeatWithin ended (Nat.lt_succ_self _) steps state)

theorem steps_commaSeparated {element : Parser α} {opening : Token} {closing : TokenName}
    (present : closing ≠ .endOfInput) (takes : element.Takes before) :
    Steps (commaSeparated.step opening closing element) before := by
  refine fun elements => .token (.ite (fun same => ?_) fun _ => .ite (fun _ => .failUnclosed _)
    fun _ => .ite (fun _ => .fail _) fun _ => ?_)
  · exact (takes_named ended same present).bind ended fun _ _ _ _ => .pure (by simp)
  · refine takes.bind ended fun found behind behindEnded less => ?_
    refine Lasts.bind (lasts_consumeIf behindEnded (by simp)) fun isComma after reaches _ => ?_
    -- the element takes a token, whether or not a comma follows
    have taken : after.ahead.length < before.ahead.length :=
      Nat.lt_of_le_of_lt reaches.length_le less
    refine .ite (fun _ => .pure fun _ _ => taken) fun _ => .token ?_
    exact .ite (fun _ => .pure fun _ _ => taken) fun _ => .ite (fun _ => .failUnclosed _)
      fun _ => .failExpecting _ _

theorem ends_commaSeparated {element : Parser α} {opening : Token} {closing : TokenName}
    (present : closing ≠ .endOfInput) (takes : element.TakesBelow (before.ahead.length + 1)) :
    (commaSeparated opening closing element).Ends before :=
  ends_loop ended fun state stateEnded fewer =>
    steps_commaSeparated stateEnded present (takes state stateEnded (by omega))

end Tokens

end Parser

end Cadence
