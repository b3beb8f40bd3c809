import Cadence.Proofs.Parse.WellFormed

/-!
# What parsers yield

`Parser.Yields` says of a parser that its results have a property wherever something holds of the state
in which it starts that parsing does not change. It is proved along the structure of a parser: for what it
is composed of and then for the composition.

Some properties of trees hold of a tree if they hold of its parts and of the tokens it is put together
from. `Traits` collects such properties for all kinds of parts, and `Traits.AreInherited` is what has to be
shown once for every way in which parts are put together: then all trees that parsers yield have them.
-/
namespace Cadence

open Source (Span)

/-- What may be known of a state: it still holds behind whatever is parsed. -/
structure Standing where
  holds : ParseState → Prop
  lasting {before after : ParseState} : before.Reaches after → holds before → holds after

namespace Parser

variable {α β : Type} {property : α → Prop} {final : β → Prop} {standing : Standing}

/-- The results of a parser have a property. -/
def Yields (parser : Parser α) (property : α → Prop) (standing : Standing) : Prop :=
  ∀ before : ParseState, standing.holds before → ∀ result ∈ (parser.run before).1, property result

namespace Yields

theorem pure {result : α} (known : property result) : Yields (pure result) property standing :=
  fun _ _ _ same => Option.some.inj same ▸ known

theorem bind {parser : Parser α} {next : α → Parser β} (first : parser.Yields property standing)
    (second : ∀ result, property result → (next result).Yields final standing) :
    (parser >>= next).Yields final standing := by
  intro before stands
  have known := first before stands
  have behind := standing.lasting (parser.reaches before) stands
  rw [run_bind]
  split
  next value state same =>
    rw [same] at known behind
    exact second value (known value rfl) state behind
  next state same => simp

theorem mono {parser : Parser α} {weaker : α → Prop} (yields : parser.Yields property standing)
    (implies : ∀ result, property result → weaker result) : parser.Yields weaker standing :=
  fun before stands result found => implies result (yields before stands result found)

theorem ite {condition : Prop} [Decidable condition] {left right : Parser α}
    (first : condition → left.Yields property standing)
    (second : ¬ condition → right.Yields property standing) :
    (if condition then left else right).Yields property standing := by
  split
  next holds => exact first holds
  next fails => exact second fails

/-- What comes behind a parser whose result does not matter. -/
theorem behind {parser : Parser α} {next : α → Parser β}
    (second : ∀ result, (next result).Yields final standing) : (parser >>= next).Yields final standing :=
  bind (fun _ _ _ _ => trivial : parser.Yields (fun _ => True) standing) fun result _ => second result

theorem fail (error : ParseError) : Yields (fail error) property standing :=
  fun _ _ _ found => nomatch found

theorem exhaust : Yields exhaust property standing := fun _ _ _ found => nomatch found

theorem attempt {parser : Parser α} (yields : parser.Yields property standing) :
    (attempt parser).Yields (fun result => ∀ found ∈ result, property found) standing :=
  fun before stands _ same => Option.some.inj same ▸ yields before stands

theorem failExpecting (expected : List Expected) (demand : Option (Demand × Token)) :
    Yields (failExpecting expected demand) property standing :=
  behind fun _ => fail _

theorem failUnclosed (opening : Token) : Yields (failUnclosed opening) property standing :=
  behind fun _ => fail _

theorem led {parser : Parser α} (mark : TokenName) (yields : parser.Yields property standing) :
    (led mark parser).Yields (fun result => ∀ found ∈ result, property found) standing := by
  refine behind fun _ => .ite (fun _ => ?_) fun _ => .pure (by simp)
  exact yields.bind fun found known => .pure (by simpa using known)

/-- What holds of the outcome of a step of a loop. -/
def OfStep (invariant : α → Prop) (final : β → Prop) : Step α β → Prop
  | .more state => invariant state
  | .done result => final result

theorem repeatWithin {step : α → Parser (Step α β)} {invariant : α → Prop}
    (each : ∀ state, invariant state → (step state).Yields (OfStep invariant final) standing)
    (budget : Nat) {state : α} (initial : invariant state) :
    (repeatWithin step budget state).Yields final standing := by
  -- a run that is given up has no result, and so the budget does not matter
  induction budget generalizing state with
  | zero => exact exhaust
  | succ budget ih =>
    refine (each state initial).bind fun outcome known => ?_
    cases outcome with
    | more state => exact ih known
    | done result => exact .pure known

theorem loop {step : α → Parser (Step α β)} (invariant : α → Prop) (final : β → Prop) {state : α}
    (initial : invariant state)
    (each : ∀ state, invariant state → (step state).Yields (OfStep invariant final) standing) :
    (loop step state).Yields final standing :=
  behind fun _ => .repeatWithin each _ initial

theorem commaSeparated {element : Parser α} (opening : Token) (closing : TokenName)
    (yields : element.Yields property standing) :
    (commaSeparated opening closing element).Yields
      (fun result => ∀ found ∈ result.1, property found) standing := by
  refine loop (fun elements => ∀ found ∈ elements, property found) _ (by simp) ?_
  intro elements known
  refine behind fun current => .ite (fun _ => ?_) fun _ => .ite (fun _ => ?_) fun _ =>
    .ite (fun _ => ?_) fun _ => ?_
  · exact behind fun _ => .pure known
  · exact failUnclosed opening
  · exact fail _
  · refine yields.bind fun found this => ?_
    -- the three ways on either go on with the longer list or report an error
    have extended : ∀ other ∈ elements ++ [found], property other := by
      intro other member
      rcases List.mem_append.mp member with old | new
      · exact known other old
      · exact List.mem_singleton.mp new ▸ this
    refine behind fun _ => .ite (fun _ => .pure extended) fun _ => ?_
    refine behind fun behind => .ite (fun _ => .pure extended) fun _ => ?_
    exact .ite (fun _ => failUnclosed opening) fun _ => failExpecting _ _

end Yields

end Parser

/-- Something that may hold of tokens, and of the parts of trees. -/
structure Traits where
  token : Token → Prop
  type : Ty → Prop
  parameter : Member → Prop
  field : Member → Prop
  expression : Expr → Prop
  node : Node → Prop

namespace Traits

variable (traits : Traits)

/-- The name is that of an identifier of which something is known. -/
def IsName (binder : Identifier) : Prop :=
  ∃ token, traits.token token ∧ token.lexeme = .identifier binder.value

/-- The name in front of the type of a parameter. -/
def IsParameterName (binder : Identifier) : Prop :=
  ∃ token, traits.token token ∧ token.lexeme.parameterName? = some binder.value

/-- A procedure can be named after an operator. -/
def IsProcedureName (binder : Identifier) : Prop :=
  traits.IsName binder ∨ ∃ operator : Operator, binder.value = operator.name

/-- The parameters and the result of a procedure have the traits. -/
structure Signature (parameters : List Member) (result : Option Annotation) : Prop where
  parameters : ∀ parameter ∈ parameters, traits.parameter parameter
  result : ∀ annotated ∈ result, traits.type annotated.value

/-- The parts of a form of an expression have the traits, and it is one that stands for a value. -/
def FormParts : Form → Prop
  | .reference binder symbol => traits.IsName binder ∧ symbol = none
  | .field target name => traits.expression target ∧ traits.IsName name
  | .call callee arguments =>
    traits.expression callee ∧ ∀ argument ∈ arguments, traits.expression argument
  | .binary left operator right =>
    traits.expression left ∧ operator.value.precedence?.isSome ∧ traits.expression right
  | .unary operator operand => operator.value.isUnary = true ∧ traits.expression operand
  | .cast operand type => traits.expression operand ∧ traits.type type.value
  | .block nodes => ∀ node ∈ nodes, traits.node node
  | .conditional _ condition first alternative | .loop _ condition first alternative =>
    traits.expression condition ∧ traits.expression first ∧
      ∀ second ∈ alternative, traits.expression second
  | .new type => traits.type type.value
  | .delete operand => traits.expression operand
  | .defer node => traits.node node
  | .uninitialized => False
  | .bool _ | .integer _ _ | .real _ | .text _ | .character _ => True

/-- The parts of a node have the traits, and nothing is recorded in it yet. -/
def NodeParts : Node → Prop
  | .procedure _ head body =>
    (head.symbol = none ∧ (∀ binder ∈ head.binder, traits.IsProcedureName binder) ∧
      traits.Signature head.parameters head.result) ∧
      (body = none ↔ head.isExternal = true) ∧ ∀ expression ∈ body, traits.expression expression
  | .struct _ declared =>
    declared.symbol = none ∧ (∀ binder ∈ declared.binder, traits.IsName binder) ∧
      ∀ field ∈ declared.fields, traits.field field
  | .binding _ head initial =>
    (head.symbol = none ∧ traits.IsName head.binder ∧
      ∀ annotated ∈ head.type, traits.type annotated.value) ∧
      -- the explicit lack of a value is not an expression that stands for one
      ∀ value ∈ initial, value.IsUninitialized ∨ traits.expression value
  | .load _ _ => True
  | .expression inner => traits.expression inner
  | .assignment _ target operator value =>
    traits.expression target ∧ target.isPlace = true ∧
      (∀ sign ∈ operator, sign.value.precedence?.isSome) ∧ traits.expression value

/-- Whatever is put together of parts with the traits has them as well. -/
structure AreInherited : Prop where
  builtin (builtin : BuiltinType) : traits.type (.builtin builtin)
  pointer {target : Ty} : traits.type target → traits.type (.pointer target)
  named (path : Identifier) : traits.type (.named path none)
  signature {signature : Cadence.Signature} :
    traits.Signature signature.parameters signature.result → traits.type signature.type
  parameter {name : Option Identifier} {annotated : Annotation} :
    (∀ binder ∈ name, traits.IsParameterName binder) → traits.type annotated.value →
      traits.parameter { binder := name.getD ⟨Ty.anonymous, annotated.span⟩, type := annotated }
  field {binder : Identifier} {annotated : Annotation} :
    traits.IsName binder → traits.type annotated.value → traits.field { binder, type := annotated }
  expression {info : ExprInfo} {form : Form} :
    info.IsUnmarked form → traits.FormParts form → traits.expression (.mk info form)
  /-- Brackets around an expression belong to it. -/
  bracketed {expression : Expr} (span : Span) :
    traits.expression expression → traits.expression (expression.withSpan span)
  node {node : Node} : traits.NodeParts node → traits.node node

/-- All tokens ahead have the trait, and so does the end of the input. -/
def standing : Standing where
  holds state := ∀ placed ∈ state.finish :: state.ahead, traits.token placed.token
  lasting reaches stands := by
    rw [List.forall_mem_cons] at stands ⊢
    exact ⟨reaches.finish_eq ▸ stands.1, fun placed member =>
      stands.2 placed (reaches.ahead_suffix.subset member)⟩

namespace AreInherited

variable {traits} (inherited : traits.AreInherited)
include inherited

theorem ofForm {span : Span} {form : Form} (silent : form.statedType? = none)
    (parts : traits.FormParts form) : traits.expression (.ofForm span form) :=
  inherited.expression ⟨rfl, rfl, silent.symm⟩ parts

theorem typed {span : Span} {type : Ty} {form : Form} (stated : form.statedType? = some type)
    (parts : traits.FormParts form) : traits.expression (.typed span type form) :=
  inherited.expression ⟨rfl, rfl, stated.symm⟩ parts

end AreInherited

end Traits

end Cadence
