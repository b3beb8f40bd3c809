import Cadence.Proofs.Parse.Integers
import Cadence.Proofs.Parse.Results
import Cadence.Proofs.Plan.Naming
import Cadence.Proofs.Token.Writing

/-!
# The names of what is declared

Whatever a parsed file declares has the name of an identifier in it, except for procedures that are named
after operators and for what has no name: that is called by a placeholder, which no identifier is. Fields of
structs always have the name of an identifier.
-/
namespace Cadence

open Source (File)

/-- How a declaration can be called. -/
inductive IsDeclaredName : String → Prop
  | identifier {name : String} : IsIdentifier name → IsDeclaredName name
  | operator (operator : Operator) : IsDeclaredName operator.name
  | anonymous : IsDeclaredName Ty.anonymous

/-- All declarations of a plan are called in one of these ways, and fields by identifiers. -/
def Plan.IsNamed : Plan → Prop :=
  Plan.Names (fun heading => IsDeclaredName heading.name) IsIdentifier

theorem Expr.isNamed_planOption {expression : Option Expr}
    (named : ∀ inner ∈ expression, inner.plan.IsNamed) : (Expr.planOption expression).IsNamed := by
  cases expression with
  | none => nofun
  | some inner => exact named inner rfl

theorem Expr.isNamed_planAll {expressions : List Expr}
    (named : ∀ inner ∈ expressions, inner.plan.IsNamed) : (Expr.planAll expressions).IsNamed := by
  induction expressions with
  | nil => nofun
  | cons first rest ih =>
    obtain ⟨own, others⟩ := List.forall_mem_cons.mp named
    exact ⟨own, ih others⟩

theorem Node.isNamed_planAll {nodes : List Node} (named : ∀ node ∈ nodes, node.plan.IsNamed) :
    (Node.planAll nodes).IsNamed := by
  rw [planAll_eq]
  exact Plan.names_sequence.mpr (List.forall_mem_map.mpr named)

/-- To declare nothing but what is called in one of these ways, if identifiers are. -/
def Traits.named : Traits where
  token token := ∀ name, token.lexeme = .identifier name → IsIdentifier name
  type _ := True
  parameter member := IsDeclaredName member.binder.value
  field member := IsIdentifier member.binder.value
  expression expression := expression.plan.IsNamed
  node node := node.plan.IsNamed

section Names

variable {binder : Identifier}

theorem Traits.IsName.isIdentifier (known : named.IsName binder) : IsIdentifier binder.value := by
  obtain ⟨token, names, same⟩ := known
  exact names _ same

theorem Traits.IsParameterName.isDeclaredName (known : named.IsParameterName binder) :
    IsDeclaredName binder.value := by
  obtain ⟨token, names, same⟩ := known
  unfold Lexeme.parameterName? at same
  split at same
  -- identifiers and the placeholder itself can stand in front of the type of a parameter
  next name found => exact .identifier (Option.some.inj same ▸ names name found)
  next => exact Option.some.inj same ▸ .anonymous
  next => cases same

theorem Traits.IsProcedureName.isDeclaredName (known : named.IsProcedureName binder) :
    IsDeclaredName binder.value := by
  rcases known with isName | ⟨operator, same⟩
  · exact .identifier isName.isIdentifier
  · exact same ▸ .operator operator

/-- What has no name is called by the placeholder. -/
theorem isDeclaredName_getD {binder : Option Identifier}
    (known : ∀ present ∈ binder, IsDeclaredName present.value) :
    IsDeclaredName ((binder.map Spanned.value).getD Ty.anonymous) := by
  cases binder with
  | none => exact .anonymous
  | some present => exact known present rfl

end Names

theorem Form.isNamed_of_parts {form : Form} (parts : Traits.named.FormParts form) {info : ExprInfo}
    (unmarked : info.IsUnmarked form) : (form.plan info).IsNamed := by
  cases form with
  | reference => trivial
  | field => exact parts.1
  | call => exact ⟨parts.1, Expr.isNamed_planAll parts.2⟩
  | binary => exact ⟨parts.1, parts.2.2⟩
  | unary => exact ⟨parts.2, nofun⟩
  | cast => exact ⟨parts.1, trivial⟩
  | block => exact Node.isNamed_planAll parts
  | conditional | loop => exact ⟨parts.1, parts.2.1, Expr.isNamed_planOption parts.2.2⟩
  | new => exact ⟨trivial, nofun⟩
  | delete | defer => exact ⟨parts, nofun⟩
  | bool | integer | real | text | character =>
    -- the types of literals have no fields
    intro found recorded
    obtain rfl := Option.some.inj (unmarked.2.2.symm.trans recorded)
    trivial
  | uninitialized => cases parts

theorem Expr.isNamed_of_isUninitialized {expression : Expr} (lacks : expression.IsUninitialized) :
    expression.plan.IsNamed := by
  obtain ⟨info, form⟩ := expression
  obtain ⟨rfl, unmarked⟩ := lacks
  intro found recorded
  cases unmarked.2.2.symm.trans recorded

theorem Node.isNamed_of_parts {node : Node} (parts : Traits.named.NodeParts node) :
    node.plan.IsNamed := by
  cases node with
  | procedure span head body =>
    obtain ⟨⟨-, isName, signature⟩, -, inside⟩ := parts
    have own : IsDeclaredName head.heading.name :=
      isDeclaredName_getD fun binder present => (isName binder present).isDeclaredName
    cases body with
    | none => exact own
    | some body => exact ⟨⟨own, List.forall_mem_map.mpr signature.parameters⟩, inside body rfl⟩
  | struct span declared =>
    exact ⟨isDeclaredName_getD fun binder present => .identifier (parts.2.1 binder present).isIdentifier,
      parts.2.2⟩
  | binding span head initial =>
    refine ⟨.identifier parts.1.2.1.isIdentifier, Expr.isNamed_planOption fun value present => ?_⟩
    exact (parts.2 value present).elim Expr.isNamed_of_isUninitialized id
  | load => nofun
  | expression inner => exact parts
  | assignment span target operator value => exact ⟨parts.1, parts.2.2.2⟩

theorem Traits.areInherited_named : named.AreInherited where
  builtin _ := trivial
  pointer _ := trivial
  named _ := trivial
  signature _ := trivial
  parameter {name _} known _ := by
    cases name with
    | none => exact .anonymous
    | some binder => exact (known binder rfl).isDeclaredName
  field known _ := known.isIdentifier
  expression unmarked parts := Form.isNamed_of_parts parts unmarked
  bracketed {expression} _ named := by
    obtain ⟨info, form⟩ := expression
    -- the plan of an expression tells its span, but its names do not depend on that
    cases form <;> exact named
  node := Node.isNamed_of_parts

/-- Whatever a file declares is called in one of these ways. -/
theorem Parsed.isNamed_nodes (file : File) :
    ∀ node ∈ (Parsed.ofFile file).nodes, node.plan.IsNamed := by
  refine Traits.areInherited_named.nodes ?_
  obtain ⟨finish, started, ended, -⟩ := exists_start file
  rw [started]
  refine List.forall_mem_cons.mpr ⟨?_, fun placed member name same => ?_⟩
  · -- behind the tokens stands the end of the input, which is not an identifier
    intro name same
    cases ended.symm.trans same
  · exact Lexed.isIdentifier_of_mem (mem_tokens_of_mem_inputOf member) same

end Cadence
