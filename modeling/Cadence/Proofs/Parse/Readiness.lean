import Cadence.Proofs.Parse.Results
import Cadence.Proofs.Syntax.Occurrence

/-!
# What later passes rely on in parsed trees

Nothing is checked again behind the parser: that assignments go to places, that operators stand where
they can stand, that an explicit lack of a value is a whole initial value, that exactly the procedures
from elsewhere have no body, and that nothing is recorded yet but the types that expressions say by
themselves. All of that holds at each place of a parsed tree, whatever was wrong with the text.
-/
namespace Cadence

open Source (File)

theorem NodeRole.mem_ofBlock {nodes : List Node} {part : NodeRole × Node}
    (member : part ∈ ofBlock nodes) : part.2 ∈ nodes := by
  induction nodes with
  | nil => cases member
  | cons first rest ih =>
    cases rest with
    | nil =>
      obtain rfl := List.mem_singleton.mp member
      exact List.mem_cons_self
    | cons second rest =>
      rcases List.mem_cons.mp member with rfl | later
      · exact List.mem_cons_self
      · exact List.mem_cons_of_mem _ (ih later)

theorem NodeRole.isWellFormed_ofExpressions {role : NodeRole} {expressions : List Expr}
    (formed : ∀ expression ∈ expressions, expression.IsWellFormed) :
    ∀ part ∈ role.ofExpressions expressions, part.2.IsWellFormed := by
  intro part member
  obtain ⟨inner, present, rfl⟩ := List.mem_map.mp member
  exact formed inner present

theorem Expr.forall_mem_toList {expression : Option Expr} (formed : Expr.IsWellFormedOption expression) :
    ∀ inner ∈ expression.toList, inner.IsWellFormed := by
  cases expression with
  | none => nofun
  | some inner => exact List.forall_mem_singleton.mpr formed

theorem Form.IsWellFormed.parts {form : Form} (formed : form.IsWellFormed) :
    ∀ part ∈ form.parts, part.2.IsWellFormed := by
  cases form with
  | field target name => exact List.forall_mem_singleton.mpr formed
  | call callee arguments =>
    exact List.forall_mem_cons.mpr ⟨formed.1,
      NodeRole.isWellFormed_ofExpressions ((Expr.isWellFormedAll_iff _).mp formed.2)⟩
  | binary left operator right =>
    exact List.forall_mem_cons.mpr ⟨formed.1, List.forall_mem_singleton.mpr formed.2.2⟩
  | unary operator operand => exact List.forall_mem_singleton.mpr formed.2
  | cast operand type => exact List.forall_mem_singleton.mpr formed.1
  | block nodes =>
    exact fun part member =>
      (Node.isWellFormedAll_iff nodes).mp formed _ (NodeRole.mem_ofBlock member)
  | conditional isNegated condition consequent alternative
  | loop isNegated condition consequent alternative =>
    exact List.forall_mem_cons.mpr ⟨formed.1, NodeRole.isWellFormed_ofExpressions
      (List.forall_mem_cons.mpr ⟨formed.2.1, Expr.forall_mem_toList formed.2.2⟩)⟩
  | delete operand => exact List.forall_mem_singleton.mpr formed
  | defer node => exact List.forall_mem_singleton.mpr formed
  | bool | integer | real | text | character | reference | new | uninitialized => nofun

/-- The node at a place is the explicit lack of a value, and it is the whole initial value of a
binding. -/
def IsLackAt (nodes : List Node) (place : List PartStep) (node : Node) : Prop :=
  ∃ outer span head value, place = ⟨0, .initializer⟩ :: outer ∧
    Occurs nodes outer (.binding span head (some value)) ∧ node = .expression value ∧
    value.IsUninitialized

theorem Expr.IsUninitialized.parts_eq {value : Expr} (lacks : value.IsUninitialized) :
    (Node.expression value).parts = [] := by
  obtain ⟨info, form⟩ := value
  obtain ⟨rfl, _⟩ := lacks
  rfl

/-- The parts of a well-formed node are well formed, apart from the initial value of a binding that
explicitly has none. -/
theorem Node.IsWellFormed.part {nodes : List Node} {place : List PartStep} {whole node : Node}
    (formed : whole.IsWellFormed) (occurs : Occurs nodes place whole) {index : Nat} {role : NodeRole}
    (found : whole.parts[index]? = some (role, node)) :
    node.IsWellFormed ∨ IsLackAt nodes (⟨index, role⟩ :: place) node := by
  have member := List.mem_of_getElem? found
  cases whole with
  | procedure span head body =>
    exact .inl (NodeRole.isWellFormed_ofExpressions (Expr.forall_mem_toList formed.2.2) _ member)
  | struct | load => cases member
  | binding span head initializer =>
    cases initializer with
    | none => cases member
    | some value =>
      -- there is only one part, and only here can the explicit lack of a value stand
      obtain ⟨rfl, rfl, rfl⟩ : index = 0 ∧ role = .initializer ∧ node = .expression value := by
        cases index with
        | zero => cases found; exact ⟨rfl, rfl, rfl⟩
        | succ index => cases found
      exact formed.2.symm.imp_right fun lacks => ⟨place, span, head, value, rfl, occurs, rfl, lacks⟩
  | expression inner =>
    obtain ⟨info, form⟩ := inner
    exact .inl (Form.IsWellFormed.parts formed.2 _ member)
  | assignment span target operator value =>
    have sides : ∀ side ∈ [target, value], side.IsWellFormed :=
      List.forall_mem_cons.mpr ⟨formed.1, List.forall_mem_singleton.mpr formed.2.2.2⟩
    exact .inl (NodeRole.isWellFormed_ofExpressions sides _ member)

/-- In a file of well-formed nodes, the node at each place is well formed or the explicit lack of an
initial value. -/
theorem Occurs.isWellFormed_or {nodes : List Node} (formed : ∀ node ∈ nodes, node.IsWellFormed)
    {place : List PartStep} {node : Node} (occurs : Occurs nodes place node) :
    node.IsWellFormed ∨ IsLackAt nodes place node := by
  induction occurs with
  | top found => exact .inl (formed _ (List.mem_of_getElem? found))
  | part occurs found ih =>
    rcases ih with whole | ⟨_, _, _, _, _, _, rfl, lacks⟩
    · exact whole.part occurs found
    · simp [lacks.parts_eq] at found

/-- What the passes behind the parser rely on in the nodes of a file, at whatever place. Parameters and
fields are members of the head of a procedure and of a struct and of nothing else, and a member has a
type and nowhere to put an initial value. -/
structure AreReady (nodes : List Node) : Prop where
  /-- A procedure lacks a body exactly if it is defined elsewhere. -/
  procedure : ∀ {place span head body}, Occurs nodes place (.procedure span head body) →
    head.IsWellFormed ∧ (body = none ↔ head.isExternal = true)
  struct : ∀ {place span declared}, Occurs nodes place (.struct span declared) → declared.IsWellFormed
  binding : ∀ {place span head initializer}, Occurs nodes place (.binding span head initializer) →
    head.IsWellFormed
  /-- Assignments go to places, and the operator can stand between two operands. -/
  assignment : ∀ {place span target operator value},
    Occurs nodes place (.assignment span target operator value) →
      target.isPlace = true ∧ ∀ sign ∈ operator, sign.value.precedence?.isSome
  binary : ∀ {place info left operator right},
    Occurs nodes place (.expression (.mk info (.binary left operator right))) →
      operator.value.precedence?.isSome
  unary : ∀ {place info operator operand},
    Occurs nodes place (.expression (.mk info (.unary operator operand))) →
      operator.value.isUnary = true
  cast : ∀ {place info operand type}, Occurs nodes place (.expression (.mk info (.cast operand type))) →
    type.value.IsWritten
  new : ∀ {place info type}, Occurs nodes place (.expression (.mk info (.new type))) →
    type.value.IsWritten
  reference : ∀ {place info binder symbol},
    Occurs nodes place (.expression (.mk info (.reference binder symbol))) → symbol = none
  /-- An explicit lack of a value is the whole initial value of a binding. -/
  uninitialized : ∀ {place info}, Occurs nodes place (.expression (.mk info .uninitialized)) →
    ∃ outer span head, place = ⟨0, .initializer⟩ :: outer ∧
      Occurs nodes outer (.binding span head (some (.mk info .uninitialized)))
  /-- The type of an expression is known exactly if its form says it, and there are no marks. -/
  unmarked : ∀ {place info form}, Occurs nodes place (.expression (.mk info form)) →
    info.IsUnmarked form

/-- Apart from the explicit lack of a value, whatever stands in a file of well-formed nodes is well
formed. -/
theorem Occurs.isWellFormed {nodes : List Node} (formed : ∀ node ∈ nodes, node.IsWellFormed)
    {place : List PartStep} {node : Node} (occurs : Occurs nodes place node)
    (present : ∀ info, node ≠ .expression (.mk info .uninitialized)) : node.IsWellFormed := by
  rcases occurs.isWellFormed_or formed with known | ⟨_, _, _, ⟨info, form⟩, _, _, rfl, rfl, _⟩
  · exact known
  · exact absurd rfl (present info)

theorem areReady_of_isWellFormed {nodes : List Node} (formed : ∀ node ∈ nodes, node.IsWellFormed) :
    AreReady nodes where
  procedure occurs :=
    have known := occurs.isWellFormed formed nofun
    ⟨known.1, known.2.1⟩
  struct occurs := occurs.isWellFormed formed nofun
  binding occurs := (occurs.isWellFormed formed nofun).1
  assignment occurs :=
    have known := occurs.isWellFormed formed nofun
    ⟨known.2.1, known.2.2.1⟩
  binary occurs := (occurs.isWellFormed formed nofun).2.2.1
  unary occurs := (occurs.isWellFormed formed nofun).2.1
  cast occurs := (occurs.isWellFormed formed nofun).2.2
  new occurs := (occurs.isWellFormed formed nofun).2
  reference occurs := (occurs.isWellFormed formed nofun).2
  uninitialized occurs := by
    rcases occurs.isWellFormed_or formed with known | ⟨outer, span, head, value, rfl, whole, same, _⟩
    · exact known.2.elim
    · obtain rfl := Node.expression.inj same
      exact ⟨outer, span, head, rfl, whole⟩
  unmarked occurs := by
    rcases occurs.isWellFormed_or formed with known | ⟨_, _, _, value, _, _, same, lacks⟩
    · exact known.1
    · obtain rfl := Node.expression.inj same
      obtain ⟨rfl, unmarked⟩ := lacks
      exact unmarked

/-- Whatever file is read and however many of its tokens are parsed, the trees are as later passes rely
on, even if errors were reported. -/
theorem parsed_trees_are_ready (file : File) (count : Nat) :
    AreReady (Parsed.ofTokens file ((Lexed.ofFile file).tokens.take count)).nodes :=
  areReady_of_isWellFormed (Parsed.isWellFormed_nodes file _)

end Cadence
