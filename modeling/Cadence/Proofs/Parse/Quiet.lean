import Cadence.Proofs.Parse.Acceptance

/-!
# Quiet parsers

A parser for types gives up at the first thing that is wrong. If it succeeds, it has only looked at
the tokens ahead and taken some of them, and so it does the same wherever these tokens are ahead.

`Parser.Quiet` says so of a parser. Like any property of the runs of parsers it is proved along their
structure: what fails is quiet, since nothing is said of failures.
-/
namespace Cadence

namespace Parser

variable {α β : Type}

/-- What comes behind a parser runs where the parser has stopped. -/
theorem exists_of_run_bind {parser : Parser α} {next : α → Parser β} {before after : ParseState}
    {found : β} (run : (parser >>= next).run before = (some found, after)) :
    ∃ value middle, parser.run before = (some value, middle) ∧
      (next value).run middle = (some found, after) := by
  rw [run_bind] at run
  split at run
  next value middle same => exact ⟨value, middle, same, run⟩
  next => cases run

/-- A parser that succeeds does the same wherever the same tokens are ahead. -/
def Quiet (parser : Parser α) : Prop :=
  ∀ ⦃before after : ParseState⦄ ⦃found : α⦄, parser.run before = (some found, after) →
    ∀ state : ParseState, state.ahead = before.ahead → state.finish = before.finish →
      parser.run state = (some found, { state with ahead := after.ahead })

namespace Quiet

theorem look {result : ParseState → α} (same : ∀ left right : ParseState,
    left.ahead = right.ahead → left.finish = right.finish → result left = result right) :
    (look result).Quiet := by
  rintro before after found ⟨⟩ state ahead finish
  rw [← ahead, same before state ahead.symm finish.symm]
  rfl

theorem pure (result : α) : (Pure.pure result : Parser α).Quiet := look fun _ _ _ _ => rfl

theorem placed : placed.Quiet := look fun left right ahead finish => by
  rw [ParseState.current, ParseState.current, ahead, finish]

theorem nextToken : nextToken.Quiet := look fun left right ahead finish => by rw [ahead, finish]

theorem countAhead : countAhead.Quiet := look fun left right ahead _ => by rw [ahead]

theorem advance : advance.Quiet := by
  rintro before after found ⟨⟩ state ahead finish
  rw [← ahead]
  rfl

theorem bind {parser : Parser α} {next : α → Parser β} (first : parser.Quiet)
    (second : ∀ value, (next value).Quiet) : (parser >>= next).Quiet := by
  intro before after found run state ahead finish
  obtain ⟨value, middle, run, later⟩ := exists_of_run_bind run
  -- the second parser starts at the same tokens, since no parser moves the end of the input
  have reaches := parser.reaches before
  rw [run] at reaches
  rw [run_bind, first run state ahead finish]
  exact second value later _ rfl (finish.trans reaches.finish_eq.symm)

theorem token : token.Quiet := placed.bind fun _ => pure _

/-- Nothing is said of a parser that fails. -/
theorem of_none {parser : Parser α} (fails : ∀ before, (parser.run before).1 = none) :
    parser.Quiet := by
  intro before after found run
  have none := fails before
  rw [run] at none
  cases none

theorem fail (error : ParseError) : (fail error : Parser α).Quiet := of_none fun _ => rfl

theorem failExpecting (expected : List Expected) (demand : Option (Demand × Token)) :
    (failExpecting expected demand : Parser α).Quiet := of_none fun _ => rfl

theorem failUnclosed (opening : Token) : (failUnclosed opening : Parser α).Quiet :=
  of_none fun _ => rfl

theorem exhaust : (exhaust : Parser α).Quiet := of_none fun _ => rfl

theorem ite {condition : Prop} [Decidable condition] {left right : Parser α} (first : left.Quiet)
    (second : right.Quiet) : (if condition then left else right).Quiet := by
  split
  · exact first
  · exact second

theorem consume (name : TokenName) : (consume name).Quiet :=
  token.bind fun _ => ite (advance.bind fun _ => pure _) (failExpecting _ _)

theorem consumeIdentifier : consumeIdentifier.Quiet := by
  refine token.bind fun current => ?_
  split
  · exact advance.bind fun _ => pure _
  · exact failExpecting _ _

theorem consumeIf (name : TokenName) : (consumeIf name).Quiet :=
  token.bind fun _ => ite (advance.bind fun _ => pure _) (pure _)

theorem led (mark : TokenName) {parser : Parser α} (quiet : parser.Quiet) :
    (led mark parser).Quiet :=
  (consumeIf mark).bind fun _ => ite (quiet.bind fun _ => pure _) (pure _)

theorem repeatWithin {step : α → Parser (Step α β)} (steps : ∀ state, (step state).Quiet)
    (budget : Nat) (state : α) : (repeatWithin step budget state).Quiet := by
  induction budget generalizing state with
  | zero => exact exhaust
  | succ budget ih =>
    refine (steps state).bind fun outcome => ?_
    cases outcome with
    | more state => exact ih state
    | done result => exact pure result

theorem loop {step : α → Parser (Step α β)} (steps : ∀ state, (step state).Quiet) (state : α) :
    (loop step state).Quiet :=
  countAhead.bind fun _ => repeatWithin steps _ state

theorem commaSeparated {element : Parser α} (elements : element.Quiet) (opening : Token)
    (closing : TokenName) : (commaSeparated opening closing element).Quiet := by
  refine loop (fun listed => token.bind fun current => ?_) []
  -- the list ends here, or something is wrong, or there is another element
  apply ite (advance.bind fun _ => pure _)
  apply ite (failUnclosed opening)
  apply ite (fail _)
  refine elements.bind fun found => (consumeIf _).bind fun _ => ite (pure _) ?_
  exact token.bind fun _ => ite (pure _) (ite (failUnclosed opening) (failExpecting _ _))

end Quiet

theorem quiet_qualifiedType : qualifiedType.Quiet := by
  refine Quiet.consumeIdentifier.bind fun path => Quiet.token.bind fun _ => ?_
  apply Quiet.ite
  · exact (Quiet.loop (fun span => (Quiet.consumeIf _).bind fun _ =>
      .ite (Quiet.consumeIdentifier.bind fun _ => .pure _) (.pure _)) _).bind fun _ => .fail _
  · exact .pure _

theorem quiet_parameterName? : parameterName?.Quiet := by
  refine Quiet.token.bind fun current => ?_
  split
  · exact .pure none
  · refine Quiet.nextToken.bind fun _ => .ite ?_ (.pure none)
    exact Quiet.advance.bind fun _ => Quiet.advance.bind fun _ => .pure _

theorem quiet_membersOf (parameters : List Parameter) : (membersOf parameters).Quiet := by
  match parameters with
  | [] => exact .pure _
  | [.varargs _] => exact .pure _
  | .varargs _ :: _ :: _ => exact .fail _
  | .member _ :: rest => exact (quiet_membersOf rest).bind fun _ => .pure _

section Types

variable {type : Parser Annotation} (types : type.Quiet)
include types

theorem quiet_parameter : (parameter type).Quiet := by
  refine Quiet.token.bind fun current => .ite (Quiet.advance.bind fun _ => .pure _) ?_
  exact quiet_parameterName?.bind fun _ => types.bind fun _ => .pure _

theorem quiet_signatureOf : (signatureOf type).Quiet := by
  refine (Quiet.consume _).bind fun opening => ?_
  refine (Quiet.commaSeparated (quiet_parameter types) opening _).bind fun listed => ?_
  exact (quiet_membersOf listed.1).bind fun _ => (Quiet.led _ types).bind fun _ => .pure _

theorem quiet_typeOf : (typeOf type).Quiet := by
  refine Quiet.token.bind fun current => ?_
  split
  · exact Quiet.advance.bind fun _ => types.bind fun _ => .pure _
  · exact Quiet.advance.bind fun _ => .pure _
  · exact quiet_qualifiedType
  · exact (quiet_signatureOf types).bind fun _ => .pure _
  · exact .failExpecting _ _

end Types

theorem quiet_type : type.Quiet := by
  refine Quiet.countAhead.bind fun count => ?_
  -- how deep types may be nested depends on the tokens ahead, but the parser is quiet at any depth
  generalize count + 1 = depth
  induction depth with
  | zero => exact .exhaust
  | succ depth ih => exact quiet_typeOf ih

theorem quiet_signature : signature.Quiet := quiet_signatureOf quiet_type

/-- What a quiet parser takes of the tokens ahead, it accepts. -/
theorem Quiet.accepts {parser : Parser α} (quiet : parser.Quiet) {before after : ParseState}
    {found : α} (run : parser.run before = (some found, after)) :
    parser.Accepts before.finish before.ahead after.ahead found :=
  quiet run (.fresh before.finish before.ahead) rfl rfl

/-- What a quiet parser accepts, it takes wherever it is ahead. -/
theorem Quiet.run_of_accepts {parser : Parser α} (quiet : parser.Quiet) {state : ParseState}
    {rest : List PlacedToken} {found : α}
    (accepts : parser.Accepts state.finish state.ahead rest found) :
    parser.run state = (some found, { state with ahead := rest }) :=
  quiet accepts state rfl rfl

end Parser

end Cadence
