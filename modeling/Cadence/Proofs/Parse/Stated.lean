import Cadence.Proofs.Parse.WellFormed
import Cadence.Proofs.Symbol.Registration
import Cadence.Proofs.Syntax.Expressions

/-!
# Types that expressions say

Some forms of expressions say what their type is: literals by what they are, and casts and allocations
by the type that is written in them. When a file is parsed, this is what is recorded as their types.
Marks and symbols make no difference to it.
-/
namespace Cadence

/-- The type of an expression is the one that its form says, apart from what is recorded for names. -/
def Expr.SaysType (expression : Expr) : Prop :=
  ∀ type ∈ expression.form.statedType?, expression.type.map Ty.bare = some type.bare

/-- All of some expressions are of the types that they say. -/
def SayTypes (expressions : List Expr) : Prop := ∀ expression ∈ expressions, expression.SaysType

namespace SayTypes

theorem append {before behind : List Expr} (left : SayTypes before) (right : SayTypes behind) :
    SayTypes (before ++ behind) := List.forall_mem_append.mpr ⟨left, right⟩

theorem of_append {before behind : List Expr} (whole : SayTypes (before ++ behind)) :
    SayTypes before ∧ SayTypes behind := List.forall_mem_append.mp whole

/-- An expression comes behind its parts. -/
theorem snoc {parts : List Expr} {whole : Expr} (inner : SayTypes parts) (own : whole.SaysType) :
    SayTypes (parts ++ [whole]) := inner.append (List.forall_mem_singleton.mpr own)

end SayTypes

theorem ExprInfo.IsUnmarked.saysType {info marked : ExprInfo} {form form' : Form}
    (unmarked : info.IsUnmarked form) (type : marked.type = info.type)
    (form_eq : form'.statedType? = form.statedType?) : (Expr.mk marked form').SaysType := by
  intro stated member
  have known : marked.type = some stated := (type.trans unmarked.2.2).trans (form_eq.symm.trans member)
  exact congrArg (Option.map Ty.bare) known

mutual

/-- Marking and registration leave the types of a parsed node as they are. -/
theorem Node.sayTypes_register {node : Node} (formed : node.IsWellFormed) (required tail : Bool)
    (builder : SymbolBuilder) :
    SayTypes ((node.markUsage required tail).register.run builder).1.expressions := by
  cases node with
  | procedure span head body =>
    cases body with
    | none => nofun
    | some body => exact Expr.sayTypes_register formed.2.2 _ _ _
  | struct | load => nofun
  | binding span head initializer =>
    cases initializer with
    | none => nofun
    | some inner =>
      rcases formed.2 with lacks | formed
      · obtain ⟨info, form⟩ := inner
        obtain ⟨rfl, unmarked⟩ := lacks
        exact List.forall_mem_singleton.mpr (unmarked.saysType rfl rfl)
      · exact Expr.sayTypes_register formed _ _ _
  | expression inner => exact Expr.sayTypes_register formed _ _ _
  | assignment span target operator value =>
    exact (Expr.sayTypes_register formed.1 _ _ _).append (Expr.sayTypes_register formed.2.2.2 _ _ _)

theorem Expr.sayTypes_register {expression : Expr} (formed : expression.IsWellFormed)
    (required tail : Bool) (builder : SymbolBuilder) :
    SayTypes ((expression.markUsage required tail).register.run builder).1.expressions := by
  obtain ⟨info, form⟩ := expression
  obtain ⟨inner, same⟩ := Form.sayTypes_register formed.2 required builder
  exact inner.snoc (formed.1.saysType rfl same)

theorem Form.sayTypes_register {form : Form} (formed : form.IsWellFormed) (required : Bool)
    (builder : SymbolBuilder) :
    let registered := ((form.markUsage required).register.run builder).1
    SayTypes registered.expressions ∧ registered.statedType? = form.statedType? := by
  cases form with
  | field target name => exact ⟨Expr.sayTypes_register formed _ _ _, rfl⟩
  | call callee arguments =>
    exact ⟨(Expr.sayTypes_register formed.1 _ _ _).append (Expr.sayTypes_registerAll formed.2 _), rfl⟩
  | binary left operator right =>
    exact ⟨(Expr.sayTypes_register formed.1 _ _ _).append (Expr.sayTypes_register formed.2.2 _ _ _), rfl⟩
  | unary operator operand => exact ⟨Expr.sayTypes_register formed.2 _ _ _, rfl⟩
  | cast operand type => exact ⟨Expr.sayTypes_register formed.1 _ _ _, rfl⟩
  | block nodes => exact ⟨Node.sayTypes_registerSequence formed _ _, rfl⟩
  | conditional isNegated condition consequent alternative =>
    exact ⟨(Expr.sayTypes_register formed.1 _ _ _).append
      ((Expr.sayTypes_register formed.2.1 _ _ _).append (Expr.sayTypes_registerOption formed.2.2 _ _ _)), rfl⟩
  | loop isNegated condition body alternative =>
    exact ⟨(Expr.sayTypes_register formed.1 _ _ _).append
      ((Expr.sayTypes_register formed.2.1 _ _ _).append (Expr.sayTypes_registerOption formed.2.2 _ _ _)), rfl⟩
  | delete operand => exact ⟨Expr.sayTypes_register formed _ _ _, rfl⟩
  | defer node => exact ⟨Node.sayTypes_register formed _ _ _, rfl⟩
  | bool | integer | real | text | character | reference | new | uninitialized => exact ⟨nofun, rfl⟩

theorem Expr.sayTypes_registerOption {expression : Option Expr}
    (formed : Expr.IsWellFormedOption expression) (required tail : Bool) (builder : SymbolBuilder) :
    SayTypes (Expr.expressionsOption
      ((Expr.registerOption (Expr.markOption required tail expression)).run builder).1) := by
  cases expression with
  | none => nofun
  | some inner => exact Expr.sayTypes_register formed _ _ _

theorem Expr.sayTypes_registerAll {expressions : List Expr} (formed : Expr.IsWellFormedAll expressions)
    (builder : SymbolBuilder) : SayTypes (Expr.expressionsAll
      ((Expr.registerAll (Expr.markOperands expressions)).run builder).1) := by
  cases expressions with
  | nil => nofun
  | cons first rest =>
    exact (Expr.sayTypes_register formed.1 _ _ _).append (Expr.sayTypes_registerAll formed.2 _)

theorem Node.sayTypes_registerSequence {nodes : List Node} (formed : Node.IsWellFormedAll nodes)
    (required : Bool) (builder : SymbolBuilder) : SayTypes (Node.expressionsAll
      ((Node.registerAll (Node.markSequence required nodes)).run builder).1) := by
  match nodes with
  | [] => nofun
  | [last] => exact (Node.sayTypes_register formed.1 _ _ _).append nofun
  | first :: second :: rest =>
    exact (Node.sayTypes_register formed.1 _ _ _).append (Node.sayTypes_registerSequence formed.2 _ _)

end

/-- In a file that was parsed and registered, all expressions are of the types that they say. -/
theorem Registration.sayTypes_file {nodes : List Node} (formed : ∀ node ∈ nodes, node.IsWellFormed)
    (builder : SymbolBuilder) :
    SayTypes (Node.expressionsAll ((Registration.file nodes).run builder).1) := by
  rw [Registration.file]
  induction nodes generalizing builder with
  | nil => nofun
  | cons first rest ih =>
    obtain ⟨own, others⟩ := List.forall_mem_cons.mp formed
    exact (Node.sayTypes_register own _ _ _).append (ih others _)

end Cadence
