import Cadence.Proofs.Parse.Nesting
import Cadence.Proofs.Parse.Recognition

/-!
# The tokens that parsers take

`Parser.Reads` says what holds of the result of a parser and the tokens up to it: those that were
taken before, which the result may depend on, and those that the parser takes itself. The tokens are
in order, which is what the spans in a report depend on.
-/
namespace Cadence

open Source (Span)

/-- The span that the error has put together does not end before it starts. -/
def ParseError.HasOrderedSpan : ParseError → Prop
  | .qualifiedPath span | .invalidTarget span _ => span.IsOrdered
  | _ => True

namespace Parser

variable {α β : Type} {before : ParseState} {past : List PlacedToken}
  {post : List PlacedToken → β → Prop}

/-- Behind the tokens of the past, the parser takes tokens that its result agrees with, together
with the past, and it reports nothing out of order. -/
def Reads (parser : Parser α) (before : ParseState) (past : List PlacedToken)
    (post : List PlacedToken → α → Prop) : Prop :=
  before.IsEnded → AreOrdered (past ++ before.ahead) →
    (∀ error ∈ (parser.run before).2.errors, error ∈ before.errors ∨ error.HasOrderedSpan) ∧
    ∀ result ∈ (parser.run before).1, ∃ own,
      before.ahead = own ++ (parser.run before).2.ahead ∧ post (past ++ own) result

/-- Wherever the parser starts, its result agrees with the tokens that it takes. -/
def Spells (parser : Parser α) (post : List PlacedToken → α → Prop) : Prop :=
  ∀ before, parser.Reads before [] post

namespace Reads

theorem pure {result : β} (known : post past result) :
    (pure result : Parser β).Reads before past post := by
  refine fun _ _ => ⟨fun error old => .inl old, fun found same => ⟨[], rfl, ?_⟩⟩
  rw [List.append_nil]
  exact Option.some.inj same ▸ known

/-- A parser goes on behind the tokens that another one has taken. -/
theorem chain {parser : Parser α} {next : α → Parser β} {middle : List PlacedToken → α → Prop}
    (first : parser.Reads before past middle)
    (second : ∀ result total after, middle total result → (next result).Reads after total post) :
    (parser >>= next).Reads before past post := by
  intro ended ordered
  have reaches := parser.reaches before
  obtain ⟨errors, known⟩ := first ended ordered
  rw [run_bind]
  split
  next value after same =>
    rw [same] at reaches errors known
    -- what the first parser takes belongs to the past of the second one
    obtain ⟨own, split, holds⟩ := known value rfl
    rw [split, ← List.append_assoc] at ordered
    obtain ⟨laterErrors, results⟩ := second value _ after holds (ended.of_reaches reaches) ordered
    refine ⟨fun error member => ?_, fun result found => ?_⟩
    · rcases laterErrors error member with old | new
      · exact errors error old
      · exact .inr new
    · obtain ⟨more, further, holds⟩ := results result found
      exact ⟨own ++ more, by rw [split, further, List.append_assoc], by rwa [← List.append_assoc]⟩
  next after same =>
    rw [same] at errors
    exact ⟨errors, by simp⟩

/-- A parser that does not depend on the past. -/
theorem behind {parser : Parser α} {covers : List PlacedToken → α → Prop}
    (reads : parser.Reads before [] covers) :
    parser.Reads before past fun total result =>
      ∃ own, total = past ++ own ∧ covers own result := by
  intro ended ordered
  obtain ⟨errors, results⟩ := reads ended (ordered.of_sublist (List.sublist_append_right past _))
  refine ⟨errors, fun result found => ?_⟩
  obtain ⟨own, split, holds⟩ := results result found
  exact ⟨own, split, own, rfl, holds⟩

theorem bind {parser : Parser α} {next : α → Parser β} {middle : List PlacedToken → α → Prop}
    (first : parser.Reads before [] middle)
    (second : ∀ result own after, middle own result →
      (next result).Reads after (past ++ own) post) :
    (parser >>= next).Reads before past post := by
  refine chain first.behind ?_
  rintro result _ after ⟨own, rfl, holds⟩
  exact second result own after holds

theorem mono {parser : Parser β} {weaker : List PlacedToken → β → Prop}
    (reads : parser.Reads before past post)
    (implies : ∀ total result, post total result → weaker total result) :
    parser.Reads before past weaker := by
  intro ended ordered
  obtain ⟨errors, results⟩ := reads ended ordered
  refine ⟨errors, fun result found => ?_⟩
  obtain ⟨own, split, holds⟩ := results result found
  exact ⟨own, split, implies _ _ holds⟩

theorem ite {condition : Prop} [Decidable condition] {left right : Parser β}
    (first : condition → left.Reads before past post)
    (second : ¬ condition → right.Reads before past post) :
    (if condition then left else right).Reads before past post := by
  split
  next holds => exact first holds
  next fails => exact second fails

/-- What only looks at the state takes nothing. -/
theorem look {result : ParseState → α} {next : α → Parser β}
    (known : (next (result before)).Reads before past post) :
    (Parser.look result >>= next).Reads before past post := known

theorem token {next : Token → Parser β}
    (known : (next before.current.token).Reads before past post) :
    (token >>= next).Reads before past post := known

/-- A parser goes on behind what is no longer ahead. -/
theorem drop {next : Unit → Parser β} {front : List PlacedToken}
    (split : before.ahead = front ++ before.ahead.tail)
    (known : (next ()).Reads { before with ahead := before.ahead.tail } (past ++ front) post) :
    (Parser.advance >>= next).Reads before past post := by
  intro ended ordered
  rw [split, ← List.append_assoc] at ordered
  obtain ⟨errors, results⟩ := known ended ordered
  refine ⟨errors, fun result found => ?_⟩
  obtain ⟨own, further, holds⟩ := results result found
  refine ⟨front ++ own, ?_, by rwa [← List.append_assoc]⟩
  rw [split, List.append_assoc]
  exact congrArg (front ++ ·) further

/-- Any token but the end of the input is taken from those ahead. -/
theorem advance {next : Unit → Parser β} {lexeme : Lexeme}
    (same : before.current.token.lexeme = lexeme) (present : lexeme ≠ .endOfInput)
    (known : (next ()).Reads { before with ahead := before.ahead.tail } (past ++ [before.current])
      post) :
    (advance >>= next).Reads before past post := by
  intro ended
  refine drop ?_ known ended
  cases tokens : before.ahead with
  | nil =>
    -- then the end of the input would be the current token
    rw [ParseState.current, tokens] at same
    exact absurd (same.symm.trans ended) present
  | cons first rest => simp [ParseState.current, tokens]

/-- Whatever comes next is skipped. The end of the input stays. -/
theorem skip {next : Unit → Parser β}
    (known : (next ()).Reads { before with ahead := before.ahead.tail }
      (past ++ before.ahead.take 1) post) :
    (Parser.advance >>= next).Reads before past post :=
  drop (by cases before.ahead <;> rfl) known

theorem fail {error : ParseError} (inOrder : AreOrdered past → error.HasOrderedSpan) :
    (fail error : Parser β).Reads before past post := by
  refine fun _ ordered => ⟨fun other member => ?_, fun _ found => nomatch found⟩
  rcases List.mem_append.mp member with old | new
  · exact .inl old
  · obtain rfl := List.mem_singleton.mp new
    exact .inr (inOrder (ordered.of_sublist (List.sublist_append_left past _)))

theorem failExpecting (expected : List Expected) (demand : Option (Demand × Token)) :
    (failExpecting expected demand : Parser β).Reads before past post :=
  token (fail fun _ => trivial)

theorem failUnclosed (opening : Token) : (failUnclosed opening : Parser β).Reads before past post :=
  token (fail fun _ => trivial)

theorem exhaust : (exhaust : Parser β).Reads before past post :=
  fun _ _ => ⟨fun _ old => .inl old, fun _ found => nomatch found⟩

/-- Where a parser fails, what it has taken stays taken. -/
theorem attempt {parser : Parser β} (reads : parser.Reads before past post) :
    (attempt parser).Reads before past fun total found => ∀ result ∈ found, post total result := by
  intro ended ordered
  obtain ⟨errors, results⟩ := reads ended ordered
  refine ⟨errors, ?_⟩
  rintro found ⟨⟩
  cases same : (parser.run before).1 with
  | none =>
    -- what a failing parser takes is only known to be a part of what was ahead
    obtain ⟨front, same⟩ := (parser.reaches before).ahead_suffix
    exact ⟨front, same.symm, nofun⟩
  | some result =>
    obtain ⟨own, split, holds⟩ := results result same
    exact ⟨own, split, fun _ found => Option.some.inj found ▸ holds⟩

theorem report {error : ParseError} (inOrder : error.HasOrderedSpan) {next : Unit → Parser β}
    (known : ∀ after, (next ()).Reads after past post) :
    (report error >>= next).Reads before past post := by
  intro ended ordered
  obtain ⟨errors, results⟩ := known ((Parser.report error).run before).2 ended ordered
  refine ⟨fun other member => ?_, results⟩
  rcases errors other member with old | new
  · rcases List.mem_append.mp old with older | last
    · exact .inl older
    · exact .inr (List.mem_singleton.mp last ▸ inOrder)
  · exact .inr new

end Reads

/-- The tokens are the given one alone. -/
def IsToken (name : TokenName) (own : List PlacedToken) (token : Token) : Prop :=
  ∃ placed, own = [placed] ∧ placed.token = token ∧ token.name = name

theorem ne_endOfInput_of_name {token : Token} {name : TokenName} (same : token.name = name)
    (present : name ≠ .endOfInput) : token.lexeme ≠ .endOfInput :=
  fun last => present (same.symm.trans (congrArg Lexeme.name last))

theorem spells_consume {name : TokenName} (present : name ≠ .endOfInput) :
    (consume name).Spells (IsToken name) := by
  refine fun before => .token (.ite (fun same => ?_) fun _ => .failExpecting _ _)
  exact .advance rfl (ne_endOfInput_of_name same present) (.pure ⟨_, rfl, rfl, same⟩)

theorem spells_consumeIdentifier : consumeIdentifier.Spells fun own binder =>
    (Piece.name binder).covers own := by
  refine fun before => .token ?_
  split
  next name same => exact .advance same (by simp) (.pure ⟨_, rfl, same, rfl⟩)
  next => exact .failExpecting _ _

/-- What is read if a token of some kind may be taken. -/
def IsTaken (name : TokenName) (own : List PlacedToken) (found : Bool) : Prop :=
  if found then ∃ placed, own = [placed] ∧ placed.token.name = name else own = []

theorem spells_consumeIf {name : TokenName} (present : name ≠ .endOfInput) :
    (consumeIf name).Spells (IsTaken name) := by
  refine fun before => .token (.ite (fun same => ?_) fun _ => .pure rfl)
  exact .advance rfl (ne_endOfInput_of_name same present) (.pure ⟨_, rfl, same⟩)

/-- What is read if something may stand behind a mark. -/
def IsLed (mark : TokenName) (covers : List PlacedToken → α → Prop) (own : List PlacedToken) :
    Option α → Prop
  | none => own = []
  | some found => ∃ sign inner, own = sign :: inner ∧ sign.token.name = mark ∧ covers inner found

theorem spells_led {mark : TokenName} (present : mark ≠ .endOfInput) {parser : Parser α}
    {covers : List PlacedToken → α → Prop} (spells : parser.Spells covers) :
    (led mark parser).Spells (IsLed mark covers) := by
  refine fun before => .bind (spells_consumeIf present before) fun found own after taken => ?_
  cases found with
  | false =>
    obtain rfl : own = [] := taken
    exact .pure rfl
  | true =>
    obtain ⟨placed, rfl, same⟩ := taken
    exact .bind (spells after) fun result inner last covered =>
      .pure ⟨placed, inner, rfl, same, covered⟩

/-- What holds of the outcome of a step of a loop and the tokens up to it. -/
def AfterStep (invariant : List PlacedToken → α → Prop) (post : List PlacedToken → β → Prop)
    (total : List PlacedToken) : Step α β → Prop
  | .more state => invariant total state
  | .done result => post total result

namespace Reads

theorem repeatWithin {step : α → Parser (Step α β)} {invariant : List PlacedToken → α → Prop}
    (each : ∀ state past before, invariant past state →
      (step state).Reads before past (AfterStep invariant post))
    (budget : Nat) {state : α} (initial : invariant past state) :
    (repeatWithin step budget state).Reads before past post := by
  induction budget generalizing state past before with
  | zero => exact exhaust
  | succ budget ih =>
    refine chain (each state past before initial) fun outcome total after known => ?_
    cases outcome with
    | more state => exact ih known
    | done result => exact pure known

theorem loop {step : α → Parser (Step α β)} (invariant : List PlacedToken → α → Prop)
    (each : ∀ state past before, invariant past state →
      (step state).Reads before past (AfterStep invariant post))
    {state : α} (initial : invariant past state) : (loop step state).Reads before past post :=
  look (repeatWithin each _ initial)

end Reads

theorem isOptional_nil (kind : Lexeme → Prop) : IsOptional kind [] := nofun

theorem isOptional_singleton {kind : Lexeme → Prop} {placed : PlacedToken}
    (known : kind placed.token.lexeme) : IsOptional kind [placed] := by
  intro other member
  obtain rfl := List.mem_singleton.mp member
  exact ⟨rfl, known⟩

theorem isOptional_take (tokens : List PlacedToken) :
    IsOptional (fun _ => True) (tokens.take 1) := by
  cases tokens with
  | nil => exact isOptional_nil _
  | cons first rest => exact isOptional_singleton trivial

/-- What is read of the elements of a list and its closing delimiter. -/
def IsListed (closing : TokenName) (group : α → List Piece) (own : List PlacedToken)
    (result : List α × Token) : Prop :=
  ∃ (inside : List PlacedToken) (last : PlacedToken), own = inside ++ [last] ∧
    last.token = result.2 ∧ last.token.name = closing ∧
    Sequence (scattered (IsOptional (· = .punctuation .comma)) (result.1.map group)) inside

theorem spells_commaSeparated {element : Parser α} {opening : Token} {closing : TokenName}
    (present : closing ≠ .endOfInput) {group : α → List Piece}
    (elements : element.Spells fun own found => Sequence (group found) own) :
    (commaSeparated opening closing element).Spells (IsListed closing group) := by
  intro before
  refine .loop (fun total elements => Sequence
    (scattered (IsOptional (· = .punctuation .comma)) (elements.map group)) total) ?_
    (Sequence.scattered_nil (isOptional_nil _))
  intro listed past before sequence
  -- the list is closed, the input ends, something else is there, or another element follows
  refine .token (.ite (fun same => ?_) fun _ => .ite (fun _ => .failUnclosed _)
    fun _ => .ite (fun _ => .fail fun _ => trivial) fun _ => ?_)
  · exact .advance rfl (ne_endOfInput_of_name same present)
      (.pure ⟨past, _, rfl, rfl, same, sequence⟩)
  · refine .bind (elements before) fun found own after covered => ?_
    refine .bind (spells_consumeIf (by simp) after) fun isComma comma last taken => ?_
    have more : Sequence (scattered (IsOptional (· = .punctuation .comma))
        ((listed ++ [found]).map group)) (past ++ own ++ comma) := by
      rw [List.map_append]
      refine sequence.scattered_snoc covered ?_
      cases isComma with
      | false =>
        obtain rfl : comma = [] := taken
        exact isOptional_nil _
      | true =>
        obtain ⟨placed, rfl, same⟩ := taken
        exact isOptional_singleton (Token.name_eq_punctuation.mp same)
    exact .ite (fun _ => .pure more) fun _ => .token <| .ite (fun _ => .pure more) fun _ =>
      .ite (fun _ => .failUnclosed _) fun _ => .failExpecting _ _

end Parser

end Cadence
