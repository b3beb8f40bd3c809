import Cadence.Parse.File
import Mathlib.Data.List.Forall2
import Mathlib.Data.Option.Basic

/-!
# Corresponding tokens

The same tokens can stand at different places in two texts. What is parsed then differs in spans
only. A correspondence says which tokens and which spans belong together; trees, errors and the
states of parsers belong together if they are the same apart from that.

`Parser.Agrees` says of two parsers that they make the same of states that belong together. Like any
property of the runs of parsers it is proved along their structure.
-/
namespace Cadence

open Source (Span)

/-- Which tokens and spans of two texts belong together. -/
structure Correspondence where
  tokens : Token → Token → Prop
  spans : Span → Span → Prop
  lexeme_eq : ∀ {left right}, tokens left right → left.lexeme = right.lexeme
  span : ∀ {left right}, tokens left right → spans left.span right.span
  through : ∀ {left right first second}, spans left right → spans first second →
    spans (left.through first) (right.through second)

variable (c : Correspondence)

/-- The values are related and stand at places that belong together. -/
def Spanned.Alike {α : Type} (relates : α → α → Prop) (left right : Spanned α) : Prop :=
  relates left.value right.value ∧ c.spans left.span right.span

inductive Ty.Alike : Ty → Ty → Prop
  | builtin (type : BuiltinType) : Ty.Alike (.builtin type) (.builtin type)
  | pointer {target target' : Ty} : Ty.Alike target target' → Ty.Alike (.pointer target) (.pointer target')
  | procedure {parameters parameters' : List (Option String × Ty)} {isVariadic : Bool}
      {result result' : Ty} : parameters.map Prod.fst = parameters'.map Prod.fst →
      List.Forall₂ Ty.Alike (parameters.map Prod.snd) (parameters'.map Prod.snd) →
      Ty.Alike result result' →
      Ty.Alike (.procedure parameters isVariadic result) (.procedure parameters' isVariadic result')
  | struct {name : String} {fields fields' : List (String × Ty)} :
      fields.map Prod.fst = fields'.map Prod.fst →
      List.Forall₂ Ty.Alike (fields.map Prod.snd) (fields'.map Prod.snd) →
      Ty.Alike (.struct name fields) (.struct name fields')
  | named {path path' : Identifier} {symbol : Option SymbolIndex} : path.Alike c Eq path' →
      Ty.Alike (.named path symbol) (.named path' symbol)

structure Member.Alike (left right : Member) : Prop where
  binder : left.binder.Alike c Eq right.binder
  type : left.type.Alike c (Ty.Alike c) right.type
  symbol : left.symbol = right.symbol

structure ProcedureHead.Alike (left right : ProcedureHead) : Prop where
  binder : Option.Rel (Spanned.Alike c Eq) left.binder right.binder
  parameters : List.Forall₂ (Member.Alike c) left.parameters right.parameters
  isVariadic : left.isVariadic = right.isVariadic
  result : Option.Rel (Spanned.Alike c (Ty.Alike c)) left.result right.result
  isExternal : left.isExternal = right.isExternal
  symbol : left.symbol = right.symbol

structure Struct.Alike (left right : Struct) : Prop where
  binder : Option.Rel (Spanned.Alike c Eq) left.binder right.binder
  fields : List.Forall₂ (Member.Alike c) left.fields right.fields
  symbol : left.symbol = right.symbol

structure BindingHead.Alike (left right : BindingHead) : Prop where
  kind : left.kind = right.kind
  binder : left.binder.Alike c Eq right.binder
  type : Option.Rel (Spanned.Alike c (Ty.Alike c)) left.type right.type
  symbol : left.symbol = right.symbol

structure ExprInfo.Alike (left right : ExprInfo) : Prop where
  span : c.spans left.span right.span
  type : Option.Rel (Ty.Alike c) left.type right.type
  required : left.required = right.required
  tail : left.tail = right.tail

mutual

inductive Node.Alike : Node → Node → Prop
  | procedure {span span' : Span} {head head' : ProcedureHead} {body body' : Option Expr} :
      c.spans span span' → head.Alike c head' → Option.Rel Expr.Alike body body' →
      Node.Alike (.procedure span head body) (.procedure span' head' body')
  | struct {span span' : Span} {struct struct' : Struct} : c.spans span span' →
      struct.Alike c struct' → Node.Alike (.struct span struct) (.struct span' struct')
  | binding {span span' : Span} {head head' : BindingHead} {initializer initializer' : Option Expr} :
      c.spans span span' → head.Alike c head' → Option.Rel Expr.Alike initializer initializer' →
      Node.Alike (.binding span head initializer) (.binding span' head' initializer')
  | load {span span' : Span} {path path' : Spanned String} : c.spans span span' →
      path.Alike c Eq path' → Node.Alike (.load span path) (.load span' path')
  | expression {inner inner' : Expr} : Expr.Alike inner inner' →
      Node.Alike (.expression inner) (.expression inner')
  | assignment {span span' : Span} {target target' : Expr}
      {operator operator' : Option (Spanned Operator)} {value value' : Expr} : c.spans span span' →
      Expr.Alike target target' → Option.Rel (Spanned.Alike c Eq) operator operator' →
      Expr.Alike value value' →
      Node.Alike (.assignment span target operator value) (.assignment span' target' operator' value')

inductive Expr.Alike : Expr → Expr → Prop
  | mk {info info' : ExprInfo} {form form' : Form} : info.Alike c info' → Form.Alike form form' →
      Expr.Alike (.mk info form) (.mk info' form')

inductive Form.Alike : Form → Form → Prop
  | bool (value : Bool) : Form.Alike (.bool value) (.bool value)
  | integer (value : Nat) (radix : Radix) : Form.Alike (.integer value radix) (.integer value radix)
  | real (literal : String) : Form.Alike (.real literal) (.real literal)
  | text (content : String) : Form.Alike (.text content) (.text content)
  | character (character : Char) : Form.Alike (.character character) (.character character)
  | reference {binder binder' : Identifier} {symbol : Option SymbolIndex} :
      binder.Alike c Eq binder' → Form.Alike (.reference binder symbol) (.reference binder' symbol)
  | field {target target' : Expr} {field field' : Identifier} : Expr.Alike target target' →
      field.Alike c Eq field' → Form.Alike (.field target field) (.field target' field')
  | call {callee callee' : Expr} {arguments arguments' : List Expr} : Expr.Alike callee callee' →
      List.Forall₂ Expr.Alike arguments arguments' →
      Form.Alike (.call callee arguments) (.call callee' arguments')
  | binary {left left' right right' : Expr} {operator operator' : Spanned Operator} :
      Expr.Alike left left' → operator.Alike c Eq operator' → Expr.Alike right right' →
      Form.Alike (.binary left operator right) (.binary left' operator' right')
  | unary {operator operator' : Spanned Operator} {operand operand' : Expr} :
      operator.Alike c Eq operator' → Expr.Alike operand operand' →
      Form.Alike (.unary operator operand) (.unary operator' operand')
  | cast {operand operand' : Expr} {type type' : Annotation} : Expr.Alike operand operand' →
      type.Alike c (Ty.Alike c) type' → Form.Alike (.cast operand type) (.cast operand' type')
  | block {nodes nodes' : List Node} : List.Forall₂ Node.Alike nodes nodes' →
      Form.Alike (.block nodes) (.block nodes')
  | conditional {isNegated : Bool} {condition condition' consequent consequent' : Expr}
      {alternative alternative' : Option Expr} : Expr.Alike condition condition' →
      Expr.Alike consequent consequent' → Option.Rel Expr.Alike alternative alternative' →
      Form.Alike (.conditional isNegated condition consequent alternative)
        (.conditional isNegated condition' consequent' alternative')
  | loop {isNegated : Bool} {condition condition' body body' : Expr}
      {alternative alternative' : Option Expr} : Expr.Alike condition condition' →
      Expr.Alike body body' → Option.Rel Expr.Alike alternative alternative' →
      Form.Alike (.loop isNegated condition body alternative)
        (.loop isNegated condition' body' alternative')
  | new {type type' : Annotation} : type.Alike c (Ty.Alike c) type' →
      Form.Alike (.new type) (.new type')
  | delete {operand operand' : Expr} : Expr.Alike operand operand' →
      Form.Alike (.delete operand) (.delete operand')
  | defer {node node' : Node} : Node.Alike node node' → Form.Alike (.defer node) (.defer node')
  | uninitialized : Form.Alike .uninitialized .uninitialized

end

/-- Errors of one kind that are about tokens and spans that belong together. -/
inductive ParseError.Alike : ParseError → ParseError → Prop
  | unexpected {expected : List Expected} {actual actual' : Token}
      {demand demand' : Option (Demand × Token)} : c.tokens actual actual' →
      Option.Rel (fun reason reason' => reason.1 = reason'.1 ∧ c.tokens reason.2 reason'.2) demand demand' →
      ParseError.Alike (.unexpected expected actual demand) (.unexpected expected actual' demand')
  | noNode {actual actual' : Token} : c.tokens actual actual' →
      ParseError.Alike (.noNode actual) (.noNode actual')
  | misplacedVarargs {marker marker' : Token} : c.tokens marker marker' →
      ParseError.Alike (.misplacedVarargs marker.span) (.misplacedVarargs marker'.span)
  | unnamedProcedure {keyword keyword' actual actual' : Token} : c.tokens keyword keyword' →
      c.tokens actual actual' →
      ParseError.Alike (.unnamedProcedure keyword actual) (.unnamedProcedure keyword' actual')
  | invalidProcedureName {actual actual' : Token} : c.tokens actual actual' →
      ParseError.Alike (.invalidProcedureName actual) (.invalidProcedureName actual')
  | noProcedure {keyword keyword' actual actual' : Token} : c.tokens keyword keyword' →
      c.tokens actual actual' →
      ParseError.Alike (.noProcedure keyword actual) (.noProcedure keyword' actual')
  | incompleteProcedure {missing : ProcedurePart} {keyword keyword' actual actual' : Token} :
      c.tokens keyword keyword' → c.tokens actual actual' →
      ParseError.Alike (.incompleteProcedure missing keyword actual)
        (.incompleteProcedure missing keyword' actual')
  | unnamedStruct {keyword keyword' actual actual' : Token} : c.tokens keyword keyword' →
      c.tokens actual actual' →
      ParseError.Alike (.unnamedStruct keyword actual) (.unnamedStruct keyword' actual')
  | misplacedComma {comma comma' : Token} {closing : Option TokenName} : c.tokens comma comma' →
      ParseError.Alike (.misplacedComma comma closing) (.misplacedComma comma' closing)
  | qualifiedPath {path path' : Span} : c.spans path path' →
      ParseError.Alike (.qualifiedPath path) (.qualifiedPath path')
  | invalidTarget {target target' : Span} {sign sign' : Token} : c.spans target target' →
      c.tokens sign sign' → ParseError.Alike (.invalidTarget target sign) (.invalidTarget target' sign')
  | unclosed {opening opening' ending ending' : Token} : c.tokens opening opening' →
      c.tokens ending ending' →
      ParseError.Alike (.unclosed opening ending) (.unclosed opening' ending')
  | notOneCharacter {content : String} {literal literal' directive directive' : Token} :
      c.tokens literal literal' → c.tokens directive directive' →
      ParseError.Alike (.notOneCharacter content literal directive)
        (.notOneCharacter content literal' directive')

/-- Tokens that belong together and continue a line alike. -/
structure PlacedToken.Alike (left right : PlacedToken) : Prop where
  token : c.tokens left.token right.token
  continuesLine : left.continuesLine = right.continuesLine

structure ParseState.Alike (left right : ParseState) : Prop where
  ahead : List.Forall₂ (PlacedToken.Alike c) left.ahead right.ahead
  finish : left.finish.Alike c right.finish
  errors : List.Forall₂ (ParseError.Alike c) left.errors right.errors
  tainted : left.tainted = right.tainted
  exhausted : left.exhausted = right.exhausted

/-- Two parsers make the same of states that belong together. -/
def Parser.Agrees {α β : Type} (relates : α → β → Prop) (left : Parser α) (right : Parser β) : Prop :=
  ∀ before before' : ParseState, before.Alike c before' →
    Option.Rel relates (left.run before).1 (right.run before').1 ∧
      (left.run before).2.Alike c (right.run before').2

variable {c}

theorem ParseState.Alike.current {left right : ParseState} (alike : left.Alike c right) :
    left.current.Alike c right.current := by
  obtain ⟨ahead, _, _, _, _⟩ := left
  obtain ⟨ahead', _, _, _, _⟩ := right
  obtain ⟨related, finish, _, _, _⟩ := alike
  cases related with
  | nil => exact finish
  | cons first _ => exact first

/-- Tokens that belong together are of the same kind. -/
theorem Correspondence.name_eq {left right : Token} (same : c.tokens left right) :
    left.name = right.name :=
  congrArg Lexeme.name (c.lexeme_eq same)

namespace Parser.Agrees

variable {α β γ δ : Type} {relates : α → β → Prop} {final : γ → δ → Prop}

theorem look {result : ParseState → α} {result' : ParseState → β}
    (related : ∀ before before' : ParseState, before.Alike c before' →
      relates (result before) (result' before')) : (look result).Agrees c relates (look result') :=
  fun before before' alike => ⟨.some (related before before' alike), alike⟩

theorem pure {result : α} {result' : β} (related : relates result result') :
    (Pure.pure result : Parser α).Agrees c relates (Pure.pure result') :=
  look fun _ _ _ => related

theorem bind {left : Parser α} {right : Parser β} {next : α → Parser γ} {next' : β → Parser δ}
    (first : left.Agrees c relates right)
    (second : ∀ result result', relates result result' → (next result).Agrees c final (next' result')) :
    (left >>= next).Agrees c final (right >>= next') := by
  intro before before' alike
  have known := first before before' alike
  rw [run_bind, run_bind]
  generalize left.run before = outcome at known
  generalize right.run before' = outcome' at known
  obtain ⟨result, middle⟩ := outcome
  obtain ⟨result', middle'⟩ := outcome'
  obtain ⟨results, states⟩ := known
  cases results with
  | none => exact ⟨.none, states⟩ -- neither parser goes on
  | some related => exact second _ _ related middle middle' states

theorem mono {stronger : α → β → Prop} {left : Parser α} {right : Parser β}
    (agrees : left.Agrees c stronger right) (implies : ∀ result result', stronger result result' →
      relates result result') : left.Agrees c relates right := by
  intro before before' alike
  obtain ⟨results, states⟩ := agrees before before' alike
  refine ⟨?_, states⟩
  generalize (left.run before).1 = result at results
  generalize (right.run before').1 = result' at results
  cases results with
  | none => exact .none
  | some related => exact .some (implies _ _ related)

theorem ite {condition condition' : Prop} [Decidable condition] [Decidable condition']
    (same : condition ↔ condition') {left other : Parser α} {right other' : Parser β}
    (first : condition → left.Agrees c relates right)
    (second : ¬ condition → other.Agrees c relates other') :
    (if condition then left else other).Agrees c relates (if condition' then right else other') := by
  by_cases holds : condition
  · rw [if_pos holds, if_pos (same.mp holds)]
    exact first holds
  · rw [if_neg holds, if_neg fun holds' => holds (same.mpr holds')]
    exact second holds

theorem report {error error' : ParseError} (related : error.Alike c error') :
    (report error).Agrees c Eq (report error') :=
  fun _ _ alike => ⟨.some rfl, alike.ahead, alike.finish,
    List.rel_append alike.errors (.cons related .nil), rfl, alike.exhausted⟩

theorem fail {error error' : ParseError} (related : error.Alike c error') :
    (fail error : Parser α).Agrees c relates (fail error') :=
  fun before before' alike => ⟨.none, (report related before before' alike).2⟩

theorem exhaust : (exhaust : Parser α).Agrees c relates exhaust :=
  fun _ _ alike => ⟨.none, alike.ahead, alike.finish, alike.errors, alike.tainted, rfl⟩

theorem attempt {left : Parser α} {right : Parser β} (agrees : left.Agrees c relates right) :
    (attempt left).Agrees c (Option.Rel relates) (attempt right) :=
  fun before before' alike =>
    ⟨.some (agrees before before' alike).1, (agrees before before' alike).2⟩

theorem placed : placed.Agrees c (PlacedToken.Alike c) placed := look fun _ _ alike => alike.current

theorem token : token.Agrees c c.tokens token := placed.bind fun _ _ alike => .pure alike.token

theorem nextToken : nextToken.Agrees c c.tokens nextToken := by
  refine look ?_
  rintro ⟨ahead, _, _, _, _⟩ ⟨ahead', _, _, _, _⟩ ⟨related, finish, _, _, _⟩
  cases related with
  | nil => exact finish.token
  | cons _ rest =>
    cases rest with
    | nil => exact finish.token
    | cons second _ => exact second.token

theorem advance : advance.Agrees c Eq advance := by
  rintro ⟨ahead, _, _, _, _⟩ ⟨ahead', _, _, _, _⟩ ⟨related, finish, errors, tainted, exhausted⟩
  refine ⟨.some rfl, ?_, finish, errors, tainted, exhausted⟩
  cases related with
  | nil => exact .nil
  | cons _ rest => exact rest

theorem countAhead : countAhead.Agrees c Eq countAhead := look fun _ _ alike => alike.ahead.length_eq

/-- What comes behind taking a token. -/
theorem advanced {next : Unit → Parser α} {next' : Unit → Parser β}
    (second : (next ()).Agrees c relates (next' ())) :
    (Parser.advance >>= next).Agrees c relates (Parser.advance >>= next') :=
  advance.bind fun _ _ _ => second

/-- What depends on the current token. -/
theorem onToken {next : Token → Parser α} {next' : Token → Parser β}
    (second : ∀ current current', c.tokens current current' →
      (next current).Agrees c relates (next' current')) :
    (Parser.token >>= next).Agrees c relates (Parser.token >>= next') :=
  token.bind second

theorem failExpecting (expected : List Expected) {demand demand' : Option (Demand × Token)}
    (related : Option.Rel (fun reason reason' => reason.1 = reason'.1 ∧ c.tokens reason.2 reason'.2)
      demand demand') :
    (failExpecting expected demand : Parser α).Agrees c relates (failExpecting expected demand') :=
  onToken fun _ _ same => fail (.unexpected same related)

theorem failUnclosed {opening opening' : Token} (same : c.tokens opening opening') :
    (failUnclosed opening : Parser α).Agrees c relates (failUnclosed opening') :=
  onToken fun _ _ ending => fail (.unclosed same ending)

theorem consume (name : TokenName) : (consume name).Agrees c c.tokens (consume name) := by
  refine onToken fun current current' same => .ite (by rw [c.name_eq same]) (fun _ => ?_) fun _ => ?_
  · exact advanced (.pure same)
  · exact failExpecting _ .none

theorem consumeIdentifier :
    consumeIdentifier.Agrees c (Spanned.Alike c Eq) consumeIdentifier := by
  refine onToken fun current current' same => ?_
  rw [c.lexeme_eq same]
  split
  · exact advanced (.pure ⟨rfl, c.span same⟩)
  · exact failExpecting _ .none

theorem consumeIf (name : TokenName) : (consumeIf name).Agrees c Eq (consumeIf name) :=
  onToken fun _ _ same => .ite (by rw [c.name_eq same]) (fun _ => advanced (.pure rfl)) fun _ => .pure rfl

theorem led {left : Parser α} {right : Parser β} (mark : TokenName)
    (agrees : left.Agrees c relates right) :
    (led mark left).Agrees c (Option.Rel relates) (led mark right) := by
  refine (consumeIf mark).bind ?_
  rintro found _ rfl
  exact .ite Iff.rfl (fun _ => agrees.bind fun _ _ related => .pure (.some related)) fun _ => .pure .none

/-- Steps of two loops lead to what is related. -/
inductive OfStep (invariant : α → β → Prop) (final : γ → δ → Prop) : Step α γ → Step β δ → Prop
  | more {state : α} {state' : β} : invariant state state' → OfStep invariant final (.more state) (.more state')
  | done {result : γ} {result' : δ} : final result result' → OfStep invariant final (.done result) (.done result')

theorem repeatWithin {step : α → Parser (Step α γ)} {step' : β → Parser (Step β δ)}
    (each : ∀ state state', relates state state' →
      (step state).Agrees c (OfStep relates final) (step' state'))
    (budget : Nat) {state : α} {state' : β} (initial : relates state state') :
    (repeatWithin step budget state).Agrees c final (repeatWithin step' budget state') := by
  induction budget generalizing state state' with
  | zero => exact exhaust
  | succ budget ih =>
    refine (each state state' initial).bind fun outcome outcome' known => ?_
    cases known with
    | more related => exact ih related
    | done related => exact .pure related

theorem loop (invariant : α → β → Prop) {step : α → Parser (Step α γ)}
    {step' : β → Parser (Step β δ)} {state : α} {state' : β} (initial : invariant state state')
    (each : ∀ state state', invariant state state' →
      (step state).Agrees c (OfStep invariant final) (step' state')) :
    (loop step state).Agrees c final (loop step' state') := by
  -- as many tokens are ahead in both states, so that both loops are given the same budget
  refine countAhead.bind ?_
  rintro count _ rfl
  exact repeatWithin each _ initial

theorem isEmpty_eq {left : List α} {right : List β} (related : List.Forall₂ relates left right) :
    left.isEmpty = right.isEmpty := by
  cases related <;> rfl

theorem commaSeparated {element : Parser α} {element' : Parser β} {opening opening' : Token}
    (same : c.tokens opening opening') (closing : TokenName) (agrees : element.Agrees c relates element') :
    (commaSeparated opening closing element).Agrees c
      (fun result result' => List.Forall₂ relates result.1 result'.1 ∧ c.tokens result.2 result'.2)
      (commaSeparated opening' closing element') := by
  -- what was listed so far is the state of the loop
  refine loop (List.Forall₂ relates) .nil fun elements elements' related => ?_
  refine onToken fun current current' here => .ite (by rw [c.name_eq here]) (fun _ => ?_) fun _ => ?_
  · exact advanced (.pure (.done ⟨related, here⟩))
  refine .ite (by rw [c.name_eq here]) (fun _ => failUnclosed same) fun _ => ?_
  refine .ite (by rw [c.name_eq here]) (fun _ => ?_) fun _ => ?_
  · rw [isEmpty_eq related]
    exact fail (.misplacedComma here)
  · refine agrees.bind fun found found' this => ?_
    have extended := List.rel_append related (.cons this .nil)
    refine (consumeIf _).bind ?_
    rintro more _ rfl
    refine .ite Iff.rfl (fun _ => .pure (.more extended)) fun _ => ?_
    refine onToken fun current current' here => ?_
    refine .ite (by rw [c.name_eq here]) (fun _ => .pure (.more extended)) fun _ => ?_
    exact .ite (by rw [c.name_eq here]) (fun _ => failUnclosed same) fun _ => failExpecting _ .none

end Parser.Agrees

end Cadence
