import Cadence.Diagnostic.Code
import Cadence.Proofs.Resolution.Scoping
import Cadence.Proofs.Syntax.Names
import Cadence.Resolution.Tree
import Mathlib.Logic.Function.Basic

/-!
# Plans

A plan is what matters about a tree when types are found: which names are used and which types are
written down in it, what it declares, and how the types of its parts are put together. To run a plan
is to walk over the tree once. Types of symbols are read and recorded on the way, and it is noted
what is found out about each expression.
-/
namespace Cadence

open Source (Span)

/-- How the type of a whole comes out of those of its two parts. -/
inductive Rule where
  | nothing
  | first
  | second
  /-- What a call of the first part yields. -/
  | result
  | binary (operator : Operator)
  | unary (operator : Operator)

def Rule.type : Rule → Option Ty → Option Ty → Option Ty
  | nothing, _, _ => none
  | first, left, _ => left
  | second, _, right => right
  | result, callee, _ => callee.bind Ty.result?
  | binary operator, left, _ => operator.binaryType left
  | unary operator, operand, _ => operator.unaryType operand

inductive Plan where
  /-- Something of a known type, or of none. -/
  | value (type : Option Ty)
  /-- A type that is written down and becomes that of a value. -/
  | stated (type : Ty)
  | reference (span : Span) (name : Identifier) (symbol : Option SymbolIndex)
  | field (span : Span) (target : Plan) (field : Identifier)
  /-- An expression of any other kind. -/
  | expression (span : Span) (inner : Plan)
  /-- A procedure that is defined elsewhere. -/
  | external (head : ProcedureHead)
  | procedure (head : ProcedureHead) (body : Plan)
  | struct (declared : Struct)
  | binding (head : BindingHead) (value : Plan)
  | combine (rule : Rule) (first second : Plan)

/-- The symbol of a declaration, if it has one, and the type that is recorded for it. -/
def entryOf (symbol : Option SymbolIndex) (type : Option Ty) : List (SymbolIndex × Option Ty) :=
  symbol.toList.map fun index => (index, type)

def Member.entries (members : List Member) : List (SymbolIndex × Option Ty) :=
  members.flatMap fun member => entryOf member.symbol (some member.type.value)

def ProcedureHead.entries (head : ProcedureHead) : List (SymbolIndex × Option Ty) :=
  entryOf head.symbol (some head.type)

def Struct.entries (struct : Struct) : List (SymbolIndex × Option Ty) :=
  entryOf struct.symbol (some struct.type)

/-- A binding is of the type that is written down, or else of the one of its initial value. -/
def BindingHead.entries (head : BindingHead) (found : Option Ty) : List (SymbolIndex × Option Ty) :=
  entryOf head.symbol ((head.type.map Spanned.value).or found)

@[simp]
theorem map_fst_entryOf (symbol : Option SymbolIndex) (type : Option Ty) :
    (entryOf symbol type).map Prod.fst = symbol.toList := by
  cases symbol <;> rfl

theorem mem_entryOf {symbol : Option SymbolIndex} {type : Option Ty}
    {entry : SymbolIndex × Option Ty} :
    entry ∈ entryOf symbol type ↔ symbol = some entry.1 ∧ type = entry.2 := by
  obtain ⟨index, found⟩ := entry
  cases symbol <;> simp [entryOf, eq_comm]

@[simp]
theorem BindingHead.map_fst_entries (head : BindingHead) (found : Option Ty) :
    (head.entries found).map Prod.fst = head.symbol.toList :=
  map_fst_entryOf _ _

/-- What is known about the types of symbols. -/
abbrev Types := SymbolIndex → Option Ty

/-- The types after some more were recorded. -/
def Types.record (types : Types) (entries : List (SymbolIndex × Option Ty)) : Types :=
  entries.foldl (fun types entry => Function.update types entry.1 entry.2) types

/-- What can be asked of a table about the fields of values. -/
def Types.layout (globals : String → Option SymbolIndex) (types : Types) : Ty → Layout
  | .struct name fields => .struct name fields
  | .named path known =>
    match known.or (globals path.value) with
    | none => .unknown
    | some index => .ofDeclared (types index)
  | .builtin _ | .pointer _ | .procedure _ _ _ => .notAStruct

/-- The type of a field, if it is known and there is one. -/
def Layout.fieldType? (layout : Layout) (field : Identifier) : Option Ty :=
  match layout with
  | struct _ fields => (fields.find? fun candidate => candidate.1 = field.value).map Prod.snd
  | notAStruct | unknown => none

/-- A name that is misused: it denotes nothing, it stands for a type and does not denote a struct, or
it is asked for as a field of what has no fields or of a struct that does not have it. -/
structure Misnaming where
  code : ErrorCode
  name : Identifier
  deriving DecidableEq

/-- How the field that is asked for is known not to be there. -/
def Layout.missing (layout : Layout) (field : Identifier) : List Misnaming :=
  match layout with
  | struct _ fields =>
    if (fields.find? fun candidate => candidate.1 = field.value).isSome then []
    else [⟨.e023, field⟩]
  | notAStruct => [⟨.e022, field⟩]
  | unknown => []

/-- How an expression makes use of symbols and types. -/
inductive Usage where
  | reference (symbol : Option SymbolIndex)
  | access (target : Option Ty) (field : Identifier)
  | other

/-- What is found out about an expression. -/
structure Finding where
  span : Span
  usage : Usage
  type : Option Ty

/-- Whether the expression refers to a symbol whose type is not known yet. -/
def Finding.isDeferred : Finding → Bool
  | ⟨_, .reference (some _), none⟩ => true
  | _ => false

/-- What a run comes to. -/
structure Outcome where
  types : Types
  /-- The type of the whole. -/
  type : Option Ty
  /-- What is found out about the expressions, each behind its parts. -/
  findings : List Finding
  /-- The fields that were asked for and are not there. -/
  missing : List Misnaming

namespace Outcome

/-- The number of references to symbols whose types are not known yet. -/
def deferred (outcome : Outcome) : Nat := outcome.findings.countP Finding.isDeferred

/-- Nothing is found out but a type. -/
def plain (types : Types) (type : Option Ty) : Outcome := ⟨types, type, [], []⟩

/-- A field is asked of a target. -/
def access (target : Outcome) (layouts : Types → Ty → Layout) (span : Span) (field : Identifier) :
    Outcome :=
  let layout := target.type.elim .unknown (layouts target.types)
  { target with
    type := layout.fieldType? field
    findings := target.findings ++ [⟨span, .access target.type field, layout.fieldType? field⟩]
    missing := target.missing ++ layout.missing field }

/-- An expression ends. -/
def finding (inner : Outcome) (span : Span) : Outcome :=
  { inner with findings := inner.findings ++ [⟨span, .other, inner.type⟩] }

/-- A declaration ends, and further types are recorded. -/
def declaring (inner : Outcome) (entries : List (SymbolIndex × Option Ty)) : Outcome :=
  { inner with types := inner.types.record entries, type := none }

def combine (rule : Rule) (first second : Outcome) : Outcome where
  types := second.types
  type := rule.type first.type second.type
  findings := first.findings ++ second.findings
  missing := first.missing ++ second.missing

end Outcome

namespace Plan

/-- Walk over a tree. What is known about the fields of values of a type depends on the types of the
symbols at that time. -/
def run (layouts : Types → Ty → Layout) : Plan → Types → Outcome
  | value type, types => .plain types type
  | stated type, types => .plain types (some type)
  | reference span _ symbol, types =>
    ⟨types, symbol.bind types, [⟨span, .reference symbol, symbol.bind types⟩], []⟩
  | field span target name, types => (target.run layouts types).access layouts span name
  | expression span inner, types => (inner.run layouts types).finding span
  | external head, types => .plain (types.record head.entries) none
  | procedure head body, types =>
    (body.run layouts (types.record (head.entries ++ Member.entries head.parameters))).declaring []
  | struct declared, types =>
    .plain (types.record (Member.entries declared.fields ++ declared.entries)) none
  | binding head initial, types =>
    let initial := initial.run layouts types
    initial.declaring (head.entries initial.type)
  | combine rule first second, types =>
    let first := first.run layouts types
    .combine rule first (second.run layouts first.types)

/-- The symbols that are declared, each with the type that is written down for it. -/
def entries : Plan → List (SymbolIndex × Option Ty)
  | value _ | stated _ | reference _ _ _ => []
  | field _ target _ => target.entries
  | expression _ inner => inner.entries
  | external head => head.entries
  | procedure head body => head.entries ++ Member.entries head.parameters ++ body.entries
  | struct declared => Member.entries declared.fields ++ declared.entries
  | binding head initial => initial.entries ++ head.entries none
  | combine _ first second => first.entries ++ second.entries

def symbols (plan : Plan) : List SymbolIndex := plan.entries.map Prod.fst

@[simp]
theorem symbols_procedure (head : ProcedureHead) (body : Plan) :
    (procedure head body).symbols =
      (head.entries ++ Member.entries head.parameters).map Prod.fst ++ body.symbols :=
  List.map_append

@[simp]
theorem symbols_binding (head : BindingHead) (initial : Plan) :
    (binding head initial).symbols = initial.symbols ++ head.symbol.toList := by
  simp [symbols, entries]

@[simp]
theorem symbols_combine (rule : Rule) (first second : Plan) :
    (combine rule first second).symbols = first.symbols ++ second.symbols :=
  List.map_append

/-- The declarations that are made in the scope around. -/
def declarations : Plan → List Declaration
  | value _ | stated _ | reference _ _ _ => []
  | field _ target _ => target.declarations
  | expression _ inner => inner.declarations
  | external head => [.simple head.heading]
  | procedure head body =>
    [.withBody head.heading (Member.declarations head.parameters ++ body.declarations)]
  | struct declared => [.withBody declared.heading (Member.declarations declared.fields)]
  | binding head initial => initial.declarations ++ [.simple head.heading]
  | combine _ first second => first.declarations ++ second.declarations

/-- The number of expressions about which something is found out. -/
def expressionCount : Plan → Nat
  | value _ | stated _ | external _ | struct _ => 0
  | reference _ _ _ => 1
  | .field _ target _ => target.expressionCount + 1
  | expression _ inner => inner.expressionCount + 1
  | procedure _ body => body.expressionCount
  | binding _ initial => initial.expressionCount
  | combine _ first second => first.expressionCount + second.expressionCount

theorem length_findings (plan : Plan) (layouts : Types → Ty → Layout) (types : Types) :
    (plan.run layouts types).findings.length = plan.expressionCount := by
  induction plan generalizing types with
  | value | stated | external | struct | reference => rfl
  | field span target name ih => simp [run, Outcome.access, expressionCount, ih]
  | expression span inner ih => simp [run, Outcome.finding, expressionCount, ih]
  | procedure head body ih => exact ih _
  | binding head initial ih => exact ih types
  | combine rule first second ihFirst ihSecond =>
    simp [run, Outcome.combine, expressionCount, ihFirst, ihSecond]

/-- Something holds of every type that is written down. There are no names in the types of
literals. -/
def AllWritten (holds : Ty → Prop) : Plan → Prop
  | value type => ∀ found ∈ type, found.AllNames fun _ _ => False
  | stated type => holds type
  | reference _ _ _ => True
  | field _ target _ => target.AllWritten holds
  | expression _ inner => inner.AllWritten holds
  | external head => head.AllTypes holds
  | procedure head body => head.AllTypes holds ∧ body.AllWritten holds
  | struct declared => declared.AllTypes holds
  | binding head initial => head.AllTypes holds ∧ initial.AllWritten holds
  | combine _ first second => first.AllWritten holds ∧ second.AllWritten holds

theorem AllWritten.mono {holds weaker : Ty → Prop} {plan : Plan} (written : plan.AllWritten holds)
    (implies : ∀ type, holds type → weaker type) : plan.AllWritten weaker := by
  have heads {head : ProcedureHead} (types : head.AllTypes holds) : head.AllTypes weaker :=
    ⟨fun parameter member => implies _ (types.1 parameter member),
      fun result member => implies _ (types.2 result member)⟩
  induction plan with
  | value | reference => exact written
  | stated type => exact implies type written
  | field span target name ih => exact ih written
  | expression span inner ih => exact ih written
  | external head => exact heads written
  | procedure head body ih => exact ⟨heads written.1, ih written.2⟩
  | struct declared => exact fun field member => implies _ (written field member)
  | binding head initial ih => exact ⟨fun type member => implies _ (written.1 type member), ih written.2⟩
  | combine rule first second ihFirst ihSecond => exact ⟨ihFirst written.1, ihSecond written.2⟩

/-- Some plans one after the other. The last one determines the type. -/
def sequence : List Plan → Plan
  | [] => value none
  | first :: rest => combine (if rest.isEmpty then .first else .second) first (sequence rest)

theorem AllWritten.of_sequence {holds : Ty → Prop} {plans : List Plan}
    (written : (sequence plans).AllWritten holds) : ∀ plan ∈ plans, plan.AllWritten holds := by
  induction plans with
  | nil => nofun
  | cons first rest ih => exact List.forall_mem_cons.mpr ⟨written.1, ih written.2⟩

theorem AllWritten.sequence {holds : Ty → Prop} {plans : List Plan}
    (written : ∀ plan ∈ plans, plan.AllWritten holds) : (sequence plans).AllWritten holds := by
  induction plans with
  | nil => nofun
  | cons first rest ih => exact (List.forall_mem_cons.mp written).imp_right ih

theorem sequence_injective : Function.Injective sequence := by
  intro left right same
  induction left generalizing right with
  | nil =>
    cases right with
    | nil => rfl
    | cons first rest => cases same
  | cons first rest ih =>
    cases right with
    | nil => cases same
    | cons first' rest' =>
      simp only [sequence, combine.injEq] at same
      rw [same.2.1, ih same.2.2]

end Plan

end Cadence
