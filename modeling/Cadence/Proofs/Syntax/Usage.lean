import Cadence.Parse.File
import Cadence.Proofs.Symbol.Registration
import Cadence.Proofs.Syntax.Occurrence
import Mathlib.Data.List.Forall2

/-!
# How values are used, by place

Marks are handed down from a whole to its parts. What an expression ends up with depends on its
place alone: its own role decides, except that the last node of a block and the branches of a
conditional are used as the whole is. The registration of declarations leaves the marks alone.
-/
namespace Cadence

open Source (File Span)

/-- The value of an expression at a place is required. -/
inductive IsRequired : List PartStep → Prop
  | operand {index : Nat} {role : NodeRole} {outer : List PartStep} :
      role.isOperand = true → IsRequired (⟨index, role⟩ :: outer)
  | body {index : Nat} {result : Annotation} {outer : List PartStep} :
      result.value ≠ .void → IsRequired (⟨index, .body (some result)⟩ :: outer)
  | last {index : Nat} {outer : List PartStep} : IsRequired outer → IsRequired (⟨index, .last⟩ :: outer)
  | branch {index : Nat} {outer : List PartStep} :
      IsRequired outer → IsRequired (⟨index, .branch⟩ :: outer)

/-- An expression at a place is in tail position. -/
inductive IsTail : List PartStep → Prop
  | body {index : Nat} {result : Option Annotation} {outer : List PartStep} :
      IsTail (⟨index, .body result⟩ :: outer)
  | last {index : Nat} {outer : List PartStep} : IsTail (⟨index, .last⟩ :: outer)

theorem Ty.isVoid_iff (type : Ty) : type.isVoid = true ↔ type = .void := by
  unfold isVoid void
  split <;> simp_all

namespace NodeRole

/-- Whether a part is required, given whether the whole is. -/
def requires (required : Bool) : NodeRole → Bool
  | .body result => result.any fun type => !type.value.isVoid
  | .last | .branch => required
  | role => role.isOperand

/-- Whether a part is in tail position. -/
def isTail : NodeRole → Bool
  | .body _ | .last => true
  | _ => false

end NodeRole

/-- The mark that is handed down to a place. -/
def requiredAt : List PartStep → Bool
  | [] => false
  | step :: outer => step.role.requires (requiredAt outer)

def tailAt : List PartStep → Bool
  | [] => false
  | step :: _ => step.role.isTail

theorem requiredAt_iff (place : List PartStep) : requiredAt place = true ↔ IsRequired place := by
  induction place with
  | nil => exact ⟨nofun, nofun⟩
  | cons step outer ih =>
    obtain ⟨index, role⟩ := step
    constructor
    · intro required
      cases role with
      | body result =>
        obtain ⟨type, rfl, notVoid⟩ := (Option.any_eq_true _ _).mp required
        exact .body fun same => by simp [(Ty.isVoid_iff _).mpr same] at notVoid
      | last => exact .last (ih.mp required)
      | branch => exact .branch (ih.mp required)
      | topLevel | earlier | loopPart | deferred => cases required
      | callee | argument | infixOperand | prefixOperand | castOperand | fieldTarget | deleteOperand
      | condition | side | initializer => exact .operand rfl
    · intro required
      cases required with
      | operand used => cases role <;> first | rfl | cases used
      | body notVoid =>
        simpa [requiredAt, NodeRole.requires, ← Bool.not_eq_true, Ty.isVoid_iff] using notVoid
      | last whole => exact ih.mpr whole
      | branch whole => exact ih.mpr whole

theorem tailAt_iff (place : List PartStep) : tailAt place = true ↔ IsTail place := by
  constructor
  · intro tail
    match place, tail with
    | ⟨_, .body _⟩ :: _, _ => exact .body
    | ⟨_, .last⟩ :: _, _ => exact .last
  · intro tail
    cases tail <;> rfl

section Marks

/-- A part as it is marked, given whether the whole is required. -/
def markPart (required : Bool) (part : NodeRole × Node) : NodeRole × Node :=
  (part.1, part.2.markUsage (part.1.requires required) part.1.isTail)

theorem Expr.markOperands_eq (expressions : List Expr) :
    Expr.markOperands expressions = expressions.map (Expr.markUsage true false) := by
  induction expressions with
  | nil => rfl
  | cons first rest ih => exact congrArg _ ih

theorem Expr.markOption_eq (required tail : Bool) (expression : Option Expr) :
    Expr.markOption required tail expression = expression.map (Expr.markUsage required tail) := by
  cases expression <;> rfl

theorem NodeRole.map_ofExpressions (role : NodeRole) (required : Bool) (expressions : List Expr) :
    (role.ofExpressions expressions).map (markPart required) =
      role.ofExpressions (expressions.map (Expr.markUsage (role.requires required) role.isTail)) := by
  simp [ofExpressions, markPart, Node.markUsage]

theorem NodeRole.ofBlock_markSequence (required : Bool) (nodes : List Node) :
    NodeRole.ofBlock (Node.markSequence required nodes) =
      (NodeRole.ofBlock nodes).map (markPart required) := by
  induction nodes with
  | nil => rfl
  | cons first rest ih =>
    cases rest with
    | nil => rfl
    | cons second rest =>
      -- a sequence of marked nodes is empty only if the sequence is
      have more : ∃ head tail, Node.markSequence required (second :: rest) = head :: tail := by
        cases rest <;> exact ⟨_, _, rfl⟩
      obtain ⟨head, tail, marked⟩ := more
      rw [Node.markSequence, marked, NodeRole.ofBlock, ← marked, ih]
      rfl

theorem Form.parts_markUsage (form : Form) (required : Bool) :
    (form.markUsage required).parts = form.parts.map (markPart required) := by
  cases form with
  | call callee arguments =>
    simp only [markUsage, parts, List.map_cons, NodeRole.map_ofExpressions, Expr.markOperands_eq]
    rfl
  | block nodes => exact NodeRole.ofBlock_markSequence required nodes
  | conditional isNegated condition consequent alternative
  | loop isNegated condition body alternative =>
    simp only [markUsage, parts, List.map_cons, NodeRole.map_ofExpressions, Expr.markOption_eq,
      Option.toList_map]
    rfl
  | field | binary | unary | cast | delete | defer | bool | integer | real | text | character
  | reference | new | uninitialized => rfl

/-- The parts of a marked node are the parts of the node, each marked according to its role. -/
theorem Node.parts_markUsage (node : Node) (required tail : Bool) :
    (node.markUsage required tail).parts = node.parts.map (markPart required) := by
  cases node with
  | expression inner =>
    obtain ⟨info, form⟩ := inner
    exact form.parts_markUsage required
  | procedure span head body =>
    -- a body is required exactly if a result other than nothing is written down
    have returns : head.returnsValue = (NodeRole.body head.result).requires required := by
      rw [ProcedureHead.returnsValue, NodeRole.requires]
      cases head.result <;> rfl
    simp only [markUsage, parts, NodeRole.map_ofExpressions, Expr.markOption_eq, Option.toList_map,
      returns]
    rfl
  | binding span head initializer =>
    simp only [markUsage, parts, NodeRole.map_ofExpressions, Expr.markOption_eq, Option.toList_map]
    rfl
  | struct | load | assignment => rfl

/-- The nodes of a marked file are the nodes of the file at the same places. -/
theorem occurs_markUsage {nodes : List Node} {place : List PartStep} {node : Node} :
    Occurs (nodes.map (Node.markUsage false false)) place node ↔
      ∃ plain, Occurs nodes place plain ∧ node = plain.markUsage (requiredAt place) (tailAt place) := by
  constructor
  · -- down the steps of the place: the mark of a part is determined by its role and the mark above
    intro occurs
    induction occurs with
    | top found =>
      rw [List.getElem?_map, Option.map_eq_some_iff] at found
      obtain ⟨plain, found, rfl⟩ := found
      exact ⟨plain, .top found, rfl⟩
    | part _ found ih =>
      obtain ⟨whole, occurs, rfl⟩ := ih
      rw [Node.parts_markUsage, List.getElem?_map, Option.map_eq_some_iff] at found
      obtain ⟨⟨role, plain⟩, found, same⟩ := found
      cases same
      exact ⟨plain, .part occurs found, rfl⟩
  · rintro ⟨plain, occurs, rfl⟩
    induction occurs with
    | top found => exact .top (by rw [List.getElem?_map, found]; rfl)
    | part _ found ih =>
      exact .part ih (by rw [Node.parts_markUsage, List.getElem?_map, found]; rfl)

end Marks

section Registration

open Registration (run_bind run_pure run_add run_within)

/-- A node comes out of the registration of another one. -/
def Node.RegisteredAs (plain registered : Node) : Prop :=
  ∃ builder, registered = (plain.register.run builder).1

/-- A part comes out of the registration of another one of the same role. -/
def PartRegistered (plain registered : NodeRole × Node) : Prop :=
  registered.1 = plain.1 ∧ plain.2.RegisteredAs registered.2

theorem NodeRole.registers_all (role : NodeRole) (expressions : List Expr) (builder : SymbolBuilder) :
    List.Forall₂ PartRegistered (role.ofExpressions expressions)
      (role.ofExpressions ((Expr.registerAll expressions).run builder).1) := by
  induction expressions generalizing builder with
  | nil => exact .nil
  | cons first rest ih => exact .cons ⟨rfl, builder, rfl⟩ (ih _)

theorem NodeRole.registers_option (role : NodeRole) (expression : Option Expr)
    (builder : SymbolBuilder) :
    List.Forall₂ PartRegistered (role.ofExpressions expression.toList)
      (role.ofExpressions ((Expr.registerOption expression).run builder).1.toList) := by
  cases expression with
  | none => exact .nil
  | some inner => exact .cons ⟨rfl, builder, rfl⟩ .nil

theorem NodeRole.registers_block (nodes : List Node) (builder : SymbolBuilder) :
    List.Forall₂ PartRegistered (ofBlock nodes) (ofBlock ((Node.registerAll nodes).run builder).1) := by
  induction nodes generalizing builder with
  | nil => exact .nil
  | cons first rest ih =>
    cases rest with
    | nil => exact .cons ⟨rfl, builder, rfl⟩ .nil
    | cons second rest => exact .cons ⟨rfl, builder, rfl⟩ (ih _)

theorem Form.parts_register (form : Form) (builder : SymbolBuilder) :
    List.Forall₂ PartRegistered form.parts (form.register.run builder).1.parts := by
  cases form with
  | field | unary | cast | delete | defer => exact .cons ⟨rfl, _, rfl⟩ .nil
  | call callee arguments => exact .cons ⟨rfl, _, rfl⟩ (NodeRole.argument.registers_all arguments _)
  | binary left operator right => exact .cons ⟨rfl, _, rfl⟩ (.cons ⟨rfl, _, rfl⟩ .nil)
  | block nodes => exact NodeRole.registers_block nodes builder
  | conditional isNegated condition consequent alternative =>
    exact .cons ⟨rfl, _, rfl⟩ (.cons ⟨rfl, _, rfl⟩ (NodeRole.branch.registers_option alternative _))
  | loop isNegated condition body alternative =>
    exact .cons ⟨rfl, _, rfl⟩ (.cons ⟨rfl, _, rfl⟩ (NodeRole.loopPart.registers_option alternative _))
  | bool | integer | real | text | character | reference | new | uninitialized => exact .nil

/-- The parts of what comes out of a registration come out of the registration of the parts. -/
theorem Node.parts_register (node : Node) (builder : SymbolBuilder) :
    List.Forall₂ PartRegistered node.parts (node.register.run builder).1.parts := by
  cases node with
  | procedure span head body =>
    cases body with
    | none => exact .nil
    | some body => exact .cons ⟨rfl, _, rfl⟩ .nil
  | struct | load => exact .nil
  | binding span head initializer => exact NodeRole.initializer.registers_option initializer builder
  | expression inner =>
    obtain ⟨info, form⟩ := inner
    exact form.parts_register builder
  | assignment span target operator value => exact .cons ⟨rfl, _, rfl⟩ (.cons ⟨rfl, _, rfl⟩ .nil)

/-- An item of a list has a related one at the same index of a related list. -/
theorem exists_related {α β : Type} {relates : α → β → Prop} {left : List α} {right : List β}
    (related : List.Forall₂ relates left right) {index : Nat} {item : α}
    (found : left[index]? = some item) : ∃ other, right[index]? = some other ∧ relates item other := by
  induction related generalizing index with
  | nil => cases found
  | cons first _ ih =>
    cases index with
    | zero =>
      cases found
      exact ⟨_, rfl, first⟩
    | succ index => exact ih found

/-- An item of a list has a related one in a related list. -/
theorem exists_mem_related {α β : Type} {relates : α → β → Prop} {left : List α} {right : List β}
    (related : List.Forall₂ relates left right) {item : α} (member : item ∈ left) :
    ∃ other ∈ right, relates item other := by
  obtain ⟨index, found⟩ := List.mem_iff_getElem?.mp member
  obtain ⟨other, present, same⟩ := exists_related related found
  exact ⟨other, List.mem_of_getElem? present, same⟩

theorem Node.rel_registerAll (nodes : List Node) (builder : SymbolBuilder) :
    List.Forall₂ RegisteredAs nodes ((Node.registerAll nodes).run builder).1 := by
  induction nodes generalizing builder with
  | nil => exact .nil
  | cons first rest ih => exact .cons ⟨builder, rfl⟩ (ih _)

variable {nodes : List Node} {builder : SymbolBuilder} {place : List PartStep}

/-- Every node of a registered file comes from the node of the file at the same place. -/
theorem Occurs.of_registerAll {node : Node}
    (occurs : Occurs ((Node.registerAll nodes).run builder).1 place node) :
    ∃ plain, Occurs nodes place plain ∧ plain.RegisteredAs node := by
  induction occurs with
  | top found =>
    obtain ⟨plain, at_, registered⟩ := exists_related (Node.rel_registerAll nodes builder).flip found
    exact ⟨plain, .top at_, registered⟩
  | part _ found ih =>
    obtain ⟨whole, occurs, builder, rfl⟩ := ih
    obtain ⟨⟨role, plain⟩, at_, same, registered⟩ :=
      exists_related (whole.parts_register builder).flip found
    cases same
    exact ⟨plain, .part occurs at_, registered⟩

/-- Every node of a file is registered at its place. -/
theorem Occurs.registerAll (builder : SymbolBuilder) {plain : Node}
    (occurs : Occurs nodes place plain) :
    ∃ node, Occurs ((Node.registerAll nodes).run builder).1 place node ∧ plain.RegisteredAs node := by
  induction occurs with
  | top found =>
    obtain ⟨node, at_, registered⟩ := exists_related (Node.rel_registerAll nodes builder) found
    exact ⟨node, .top at_, registered⟩
  | part _ found ih =>
    obtain ⟨_, occurs, builder, rfl⟩ := ih
    obtain ⟨⟨role, node⟩, at_, same, registered⟩ := exists_related (Node.parts_register _ builder) found
    cases same
    exact ⟨node, .part occurs at_, registered⟩

end Registration

/-- There is an expression at a place of a file. -/
def HasExpression (nodes : List Node) (place : List PartStep) (span : Span) : Prop :=
  ∃ expression, Occurs nodes place (.expression expression) ∧ expression.span = span

/-- An expression comes out of the registration of one that is the same apart from its parts. -/
theorem Node.RegisteredAs.of_expression {plain : Node} {expression : Expr}
    (registered : plain.RegisteredAs (.expression expression)) :
    ∃ original, plain = .expression original ∧ expression.info = original.info := by
  obtain ⟨builder, same⟩ := registered
  cases plain with
  | expression original =>
    obtain ⟨info, form⟩ := original
    cases same
    exact ⟨_, rfl, rfl⟩
  | procedure span head body => cases body <;> cases same
  | struct | load | binding | assignment => cases same

/-- A marked expression is one that differs in its marks and parts only. -/
theorem Node.expression_of_markUsage {plain : Node} {required tail : Bool} {expression : Expr}
    (same : .expression expression = plain.markUsage required tail) :
    ∃ original, plain = .expression original ∧
      expression.info = { original.info with required, tail } := by
  cases plain with
  | expression original =>
    obtain ⟨info, form⟩ := original
    cases same
    exact ⟨_, rfl, rfl⟩
  | procedure | struct | load | binding | assignment => cases same

section File

variable {nodes : List Node} {builder : SymbolBuilder} {place : List PartStep}

/-- An expression of a registered file is that of the file at the same place, marked according to
the place. -/
theorem Occurs.expression_file {expression : Expr}
    (occurs : Occurs ((Registration.file nodes).run builder).1 place (.expression expression)) :
    ∃ original, Occurs nodes place (.expression original) ∧
      expression.info = { original.info with required := requiredAt place, tail := tailAt place } := by
  obtain ⟨marked, occurs, registered⟩ := occurs.of_registerAll
  obtain ⟨marked, rfl, sameInfo⟩ := registered.of_expression
  obtain ⟨plain, occurs, same⟩ := occurs_markUsage.mp occurs
  obtain ⟨original, rfl, info⟩ := Node.expression_of_markUsage same
  exact ⟨original, occurs, sameInfo.trans info⟩

/-- Every expression of a file is registered at its place. -/
theorem Occurs.file_expression (builder : SymbolBuilder) {original : Expr}
    (occurs : Occurs nodes place (.expression original)) :
    ∃ expression, Occurs ((Registration.file nodes).run builder).1 place (.expression expression) ∧
      expression.info.span = original.info.span := by
  have marked := occurs_markUsage.mpr ⟨_, occurs, rfl⟩
  obtain ⟨node, occurs, builder, same⟩ := marked.registerAll builder
  obtain ⟨info, form⟩ := original
  cases same
  exact ⟨_, occurs, rfl⟩

end File

/-- In a file that is parsed and registered, the value of an expression is marked as required
exactly if it is an operand, the body of a procedure that yields a value, or the last node of a
block or a branch of a conditional that is required itself, and it is in tail position exactly if it
is the body of a procedure or the last node of a block. The expressions are those that were parsed,
each at its place. -/
theorem usage_follows_place (file : File) (builder : SymbolBuilder) :
    let parsed := (Parsed.ofFile file).nodes
    let registered := ((Registration.file parsed).run builder).1
    (∀ place expression, Occurs registered place (.expression expression) →
      (expression.info.required = true ↔ IsRequired place) ∧
        (expression.info.tail = true ↔ IsTail place)) ∧
    ∀ place span, HasExpression registered place span ↔ HasExpression parsed place span := by
  intro parsed registered
  refine ⟨?_, ?_⟩
  · intro place expression occurs
    obtain ⟨original, _, info⟩ := occurs.expression_file
    rw [info]
    exact ⟨requiredAt_iff place, tailAt_iff place⟩
  · intro place span
    constructor
    · rintro ⟨expression, occurs, rfl⟩
      obtain ⟨original, occurs, info⟩ := occurs.expression_file
      exact ⟨original, occurs, by rw [Expr.span, Expr.span, info]⟩
    · rintro ⟨original, occurs, rfl⟩
      obtain ⟨expression, occurs, span⟩ := occurs.file_expression builder
      exact ⟨expression, occurs, span⟩

end Cadence
