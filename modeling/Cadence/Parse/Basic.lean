import Cadence.Parse.Error
import Cadence.Source.File
import Cadence.Syntax.Tree

/-!
# Parsers

A parser takes tokens from the front of a list and yields a part of the syntax tree. A parser that
fails has reported why and leaves the tokens where it stopped; it never goes back. The end of the
input is not in the list: it stands behind it and is never taken.

Of the layout a parser sees one thing only: whether a token goes on with the line on which the one
before it ended.
-/
namespace Cadence

open Source (File)

/-- A token as a parser sees it. -/
structure PlacedToken where
  token : Token
  /-- Whether there is no line feed between the previous token and this one. -/
  continuesLine : Bool
  deriving DecidableEq, Repr

/-- Where a parser stands and what it has found out. -/
structure ParseState where
  /-- The tokens that are not yet taken. -/
  ahead : List PlacedToken
  /-- The end of the input. -/
  finish : PlacedToken
  /-- What was reported, in order. -/
  errors : List ParseError
  /-- Whether anything was wrong. -/
  tainted : Bool
  /-- Whether parsing was given up because it nested more deeply than there are tokens. -/
  exhausted : Bool
  deriving DecidableEq, Repr

namespace ParseState

/-- The reports of a state and the note that something is wrong agree. -/
def IsHonest (state : ParseState) : Prop := state.tainted = true ↔ state.errors ≠ []

/-- What parsing can do to a state. -/
structure Reaches (before after : ParseState) : Prop where
  finish_eq : after.finish = before.finish
  ahead_suffix : after.ahead <:+ before.ahead
  errors_initial : before.errors <+: after.errors
  exhausted : before.exhausted = true → after.exhausted = true
  honest : before.IsHonest → after.IsHonest

namespace Reaches

theorem refl (state : ParseState) : state.Reaches state :=
  ⟨rfl, List.suffix_refl _, List.prefix_refl _, id, id⟩

theorem trans {before middle after : ParseState} (first : before.Reaches middle)
    (second : middle.Reaches after) : before.Reaches after where
  finish_eq := second.finish_eq.trans first.finish_eq
  ahead_suffix := second.ahead_suffix.trans first.ahead_suffix
  errors_initial := first.errors_initial.trans second.errors_initial
  exhausted := second.exhausted ∘ first.exhausted
  honest := second.honest ∘ first.honest

end Reaches

/-- Something was reported between two states, or parsing was given up. -/
def Fails (before after : ParseState) : Prop :=
  before.errors.length < after.errors.length ∨ after.exhausted = true

namespace Fails

variable {before middle after : ParseState}

theorem before_reaches (reaches : before.Reaches middle) (fails : middle.Fails after) :
    before.Fails after := by
  rcases fails with reported | exhausted
  · exact .inl (Nat.lt_of_le_of_lt reaches.errors_initial.length_le reported)
  · exact .inr exhausted

theorem then_reaches (fails : before.Fails middle) (reaches : middle.Reaches after) :
    before.Fails after := by
  rcases fails with reported | exhausted
  · exact .inl (Nat.lt_of_lt_of_le reported reaches.errors_initial.length_le)
  · exact .inr (reaches.exhausted exhausted)

end Fails

/-- The state in front of some tokens, behind which stands the end of the input. -/
def fresh (finish : PlacedToken) (input : List PlacedToken) : ParseState :=
  { ahead := input
    finish
    errors := []
    tainted := false
    exhausted := false }

theorem isHonest_fresh (finish : PlacedToken) (input : List PlacedToken) :
    (fresh finish input).IsHonest := by
  simp [IsHonest, fresh]

/-- The current token. -/
def current (state : ParseState) : PlacedToken := state.ahead.headD state.finish

end ParseState

/-- A parser changes the state and yields a result unless it fails. It only takes tokens from the
front and adds reports behind those that were made, and it does not fail in silence. -/
structure Parser (α : Type) where
  run : ParseState → Option α × ParseState
  reaches (before : ParseState) : before.Reaches (run before).2
  fails (before : ParseState) : (run before).1 = none → before.Fails (run before).2

namespace Parser

variable {α β : Type}

/-- A parser that takes nothing and reports nothing. -/
def look (result : ParseState → α) : Parser α where
  run state := (some (result state), state)
  reaches state := .refl state
  fails _ silent := nomatch silent

/-- Run one parser, and behind it another one that depends on the result of the first. -/
def andThen (parser : Parser α) (next : α → Parser β) : Parser β where
  run state :=
    match parser.run state with
    | (some value, state) => (next value).run state
    | (none, state) => (none, state)
  reaches before := by
    have reaches := parser.reaches before
    split
    next value middle same =>
      rw [same] at reaches
      exact reaches.trans ((next value).reaches middle)
    next middle same =>
      rw [same] at reaches
      exact reaches
  fails before := by
    have reaches := parser.reaches before
    have fails := parser.fails before
    split
    next value middle same =>
      rw [same] at reaches
      exact fun silent => .before_reaches reaches ((next value).fails middle silent)
    next middle same =>
      rw [same] at fails
      exact fun _ => fails rfl

instance : Monad Parser where
  pure value := look fun _ => value
  bind := andThen

theorem run_bind (parser : Parser α) (next : α → Parser β) (before : ParseState) :
    (parser >>= next).run before =
      match parser.run before with
      | (some value, state) => (next value).run state
      | (none, state) => (none, state) :=
  rfl

/-- Report an error and go on. -/
def report (error : ParseError) : Parser Unit where
  run state := (some (), { state with errors := state.errors ++ [error], tainted := true })
  reaches _ := ⟨rfl, List.suffix_refl _, List.prefix_append _ _, id, by simp [ParseState.IsHonest]⟩
  fails _ silent := nomatch silent

/-- Report an error and fail. -/
def fail (error : ParseError) : Parser α where
  run state := (none, ((report error).run state).2)
  reaches := (report error).reaches
  fails _ _ := .inl (by simp [report])

/-- Give up. -/
def exhaust : Parser α where
  run state := (none, { state with exhausted := true })
  reaches _ := ⟨rfl, List.suffix_refl _, List.prefix_refl _, fun _ => rfl, id⟩
  fails _ _ := .inr rfl

/-- Run a parser. If it fails, there is no result, and parsing goes on where it stopped. -/
def attempt (parser : Parser α) : Parser (Option α) where
  run state :=
    let (result, state) := parser.run state
    (some result, state)
  reaches := parser.reaches
  fails _ silent := nomatch silent

/-- The current token and its place. -/
def placed : Parser PlacedToken := look ParseState.current

/-- The current token. -/
def token : Parser Token := do return (← placed).token

/-- The token behind the current one. -/
def nextToken : Parser Token := look fun state => (state.ahead.tail.headD state.finish).token

/-- Take the current token. The end of the input is never taken. -/
def advance : Parser Unit where
  run state := (some (), { state with ahead := state.ahead.tail })
  reaches _ := ⟨rfl, List.tail_suffix _, List.prefix_refl _, id, id⟩
  fails _ silent := nomatch silent

/-- The number of tokens that are not yet taken. -/
def countAhead : Parser Nat := look fun state => state.ahead.length

/-- Fail because of the current token. -/
def failExpecting (expected : List Expected) (demand : Option (Demand × Token) := none) :
    Parser α := do
  fail (.unexpected expected (← token) demand)

/-- Take the current token, which has to be of the given kind. -/
def consume (name : TokenName) : Parser Token := do
  let current ← token
  if current.name = name then
    advance
    return current
  else failExpecting [.token name]

/-- Take the current token, which has to be an identifier. -/
def consumeIdentifier : Parser Identifier := do
  let current ← token
  match current.lexeme with
  | .identifier name =>
    advance
    return ⟨name, current.span⟩
  | _ => failExpecting [.token .identifier]

/-- Take the current token if it is of the given kind. -/
def consumeIf (name : TokenName) : Parser Bool := do
  if (← token).name = name then
    advance
    return true
  else return false

/-- What a token of the given kind introduces, if that token is there. -/
def led (mark : TokenName) (parser : Parser α) : Parser (Option α) := do
  if ← consumeIf mark then
    let found ← parser
    return some found
  else return none

/-- Report a delimiter that is still open at the current token, and fail. -/
def failUnclosed (opening : Token) : Parser α := do
  fail (.unclosed opening (← token))

/-- What a step of a loop leads to. -/
inductive Step (α β : Type) where
  /-- Go on with a new state of the loop. -/
  | more (state : α)
  | done (result : β)

/-- Repeat a step at most `budget` times. -/
def repeatWithin (step : α → Parser (Step α β)) : Nat → α → Parser β
  | 0, _ => exhaust
  | budget + 1, state => do
    match ← step state with
    | .more state => repeatWithin step budget state
    | .done result => return result

/-- Repeat a step that takes a token whenever it wants to go on. -/
def loop (step : α → Parser (Step α β)) (state : α) : Parser β := do
  repeatWithin step ((← countAhead) + 1) state

/-- Elements between commas up to and including the closing delimiter. A comma may follow the last
element. -/
def commaSeparated (opening : Token) (closing : TokenName) (element : Parser α) :
    Parser (List α × Token) :=
  loop (step opening closing element) []
where
  /-- The next element, or the end of the list. -/
  step (opening : Token) (closing : TokenName) (element : Parser α) (elements : List α) :
      Parser (Step (List α) (List α × Token)) := do
    let current ← token
    if current.name = closing then
      advance
      return .done (elements, current)
    else if current.name = .endOfInput then failUnclosed opening
    else if current.name = .punctuation .comma then
      fail (.misplacedComma current (if elements.isEmpty then none else some closing))
    else
      let elements := elements ++ [← element]
      if ← consumeIf (.punctuation .comma) then return .more elements
      else
        let current ← token
        if current.name = closing then return .more elements
        else if current.name = .endOfInput then failUnclosed opening
        else failExpecting [.token (.punctuation .comma), .token closing]

end Parser

end Cadence
