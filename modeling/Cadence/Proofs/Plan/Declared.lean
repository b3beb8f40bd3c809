import Cadence.Proofs.Plan.Registration
import Cadence.Proofs.Plan.Settling

/-!
# Everything that is declared

All declarations of a tree, however deep, in the order in which they are registered. What they say of
themselves was already there when the tree was parsed. With the scopes of their bodies they take up
consecutive symbols.
-/
namespace Cadence

/-- A declaration at any depth. -/
structure Declared where
  heading : Heading
  /-- The type that is written down. -/
  type : Option Ty
  /-- The declarations made directly in the body, if there is one. -/
  body : Option (List Declaration)

namespace Declared

/-- What is said in the scope around. -/
def declaration (declared : Declared) : Declaration :=
  match declared.body with
  | none => .simple declared.heading
  | some content => .withBody declared.heading content

/-- All but the symbols: the name, the kind, the type, and whether there is a body. -/
def outline (declared : Declared) : String × DeclarationKind × Option Ty × Bool :=
  (declared.heading.name, declared.heading.kind, declared.type, declared.body.isSome)

end Declared

/-- Parameters or fields as declarations. -/
def Member.declared (members : List Member) : List Declared :=
  members.map fun member => ⟨member.heading, some member.type.value, none⟩

/-- A procedure that is defined elsewhere. -/
def ProcedureHead.declared (head : ProcedureHead) : Declared := ⟨head.heading, some head.type, none⟩

/-- A procedure with what is declared directly in its body. The parameters come first. -/
def ProcedureHead.declaredWith (head : ProcedureHead) (inBody : List Declaration) : Declared :=
  ⟨head.heading, some head.type, some (Member.declarations head.parameters ++ inBody)⟩

def Struct.declared (struct : Struct) : Declared :=
  ⟨struct.heading, some struct.type, some (Member.declarations struct.fields)⟩

def BindingHead.declared (head : BindingHead) : Declared :=
  ⟨head.heading, head.type.map Spanned.value, none⟩

mutual

/-- Everything that a node declares. The parameters of a procedure that is defined elsewhere are no
declarations. -/
def Node.declared : Node → List Declared
  | .procedure _ head none => [head.declared]
  | .procedure _ head (some body) =>
    head.declaredWith body.declarations :: (Member.declared head.parameters ++ body.declared)
  | .struct _ definition => definition.declared :: Member.declared definition.fields
  | .binding _ head initializer => Expr.declaredOption initializer ++ [head.declared]
  | .load _ _ => []
  | .expression inner => inner.declared
  | .assignment _ target _ value => target.declared ++ value.declared

def Expr.declared : Expr → List Declared
  | .mk _ form => form.declared

def Form.declared : Form → List Declared
  | .field target _ => target.declared
  | .call callee arguments => callee.declared ++ Expr.declaredAll arguments
  | .binary left _ right => left.declared ++ right.declared
  | .unary _ operand => operand.declared
  | .cast operand _ => operand.declared
  | .block nodes => Node.declaredAll nodes
  | .conditional _ condition consequent alternative =>
    condition.declared ++ (consequent.declared ++ Expr.declaredOption alternative)
  | .loop _ condition body alternative =>
    condition.declared ++ (body.declared ++ Expr.declaredOption alternative)
  | .delete operand => operand.declared
  | .defer node => node.declared
  | .bool _ | .integer _ _ | .real _ | .text _ | .character _ | .reference _ _ | .new _
  | .uninitialized => []

def Expr.declaredOption : Option Expr → List Declared
  | none => []
  | some inner => inner.declared

def Expr.declaredAll : List Expr → List Declared
  | [] => []
  | first :: rest => first.declared ++ Expr.declaredAll rest

/-- Everything that some nodes declare. -/
def Node.declaredAll : List Node → List Declared
  | [] => []
  | first :: rest => first.declared ++ Node.declaredAll rest

end

namespace Plan

def declared : Plan → List Declared
  | value _ | stated _ | reference _ _ _ => []
  | .field _ target _ => target.declared
  | expression _ inner => inner.declared
  | external head => [head.declared]
  | procedure head body =>
    head.declaredWith body.declarations :: (Member.declared head.parameters ++ body.declared)
  | struct definition => definition.declared :: Member.declared definition.fields
  | binding head initial => initial.declared ++ [head.declared]
  | combine _ first second => first.declared ++ second.declared

theorem declared_sequence (plans : List Plan) :
    (sequence plans).declared = plans.flatMap declared := by
  induction plans with
  | nil => rfl
  | cons first rest ih => simp [sequence, declared, ih]

end Plan

mutual

/-- A plan has the declarations of its tree. -/
theorem Node.declared_plan (node : Node) : node.plan.declared = node.declared := by
  cases node with
  | procedure span head body =>
    cases body with
    | none => rfl
    | some body =>
      rw [Node.plan, Plan.declared, Node.declared, body.declarations_plan, body.declared_plan]
  | struct | load => rfl
  | binding span head initializer =>
    rw [Node.plan, Plan.declared, Node.declared, Expr.declared_planOption]
  | expression inner => exact inner.declared_plan
  | assignment span target operator value =>
    rw [Node.plan, Plan.declared, Node.declared, target.declared_plan, value.declared_plan]

theorem Expr.declared_plan (expression : Expr) : expression.plan.declared = expression.declared := by
  obtain ⟨info, form⟩ := expression
  exact form.declared_plan info

theorem Form.declared_plan (form : Form) (info : ExprInfo) :
    (form.plan info).declared = form.declared := by
  cases form with
  | field target name => exact target.declared_plan
  | call callee arguments =>
    simp only [Form.plan, Plan.declared, Form.declared, callee.declared_plan, Expr.declared_planAll]
  | binary left operator right =>
    simp only [Form.plan, Plan.declared, Form.declared, left.declared_plan, right.declared_plan]
  | unary operator operand | cast operand type | delete operand =>
    simp only [Form.plan, Plan.declared, Form.declared, operand.declared_plan, List.append_nil]
  | block nodes => exact Node.declared_planAll nodes
  | conditional isNegated condition consequent alternative =>
    simp only [Form.plan, Plan.declared, Form.declared, condition.declared_plan,
      consequent.declared_plan, Expr.declared_planOption]
  | loop isNegated condition body alternative =>
    simp only [Form.plan, Plan.declared, Form.declared, condition.declared_plan, body.declared_plan,
      Expr.declared_planOption]
  | defer node => simp only [Form.plan, Plan.declared, Form.declared, node.declared_plan, List.append_nil]
  | bool | integer | real | text | character | reference | new | uninitialized => rfl

theorem Expr.declared_planOption (expression : Option Expr) :
    (Expr.planOption expression).declared = Expr.declaredOption expression := by
  cases expression with
  | none => rfl
  | some inner => exact inner.declared_plan

theorem Expr.declared_planAll (expressions : List Expr) :
    (Expr.planAll expressions).declared = Expr.declaredAll expressions := by
  cases expressions with
  | nil => rfl
  | cons first rest =>
    rw [Expr.planAll, Plan.declared, Expr.declaredAll, first.declared_plan, Expr.declared_planAll rest]

theorem Node.declared_planAll (nodes : List Node) :
    (Node.planAll nodes).declared = Node.declaredAll nodes := by
  cases nodes with
  | nil => rfl
  | cons first rest =>
    rw [Node.planAll, Plan.declared, Node.declaredAll, first.declared_plan, Node.declared_planAll rest]

end

namespace Plan

/-- The type that is recorded for a declaration is the one that is written down in it. -/
theorem mem_entries_of_declared {plan : Plan} {declared : Declared} (member : declared ∈ plan.declared)
    {index : SymbolIndex} (symbol : declared.heading.symbol = some index) :
    (index, declared.type) ∈ plan.entries := by
  have members {members : List Member} (inside : declared ∈ Member.declared members) :
      (index, declared.type) ∈ Member.entries members := by
    obtain ⟨entry, present, rfl⟩ := List.mem_map.mp inside
    exact List.mem_flatMap.mpr ⟨entry, present, mem_entryOf.mpr ⟨symbol, rfl⟩⟩
  -- a plan declares in the order in which it records, apart from structs, which come behind their fields
  induction plan with
  | value | stated | reference => cases member
  | field span target name ih => exact ih member
  | expression span inner ih => exact ih member
  | external head =>
    obtain rfl := List.mem_singleton.mp member
    exact mem_entryOf.mpr ⟨symbol, rfl⟩
  | procedure head body ih =>
    simp only [Plan.declared, List.mem_cons, List.mem_append] at member
    simp only [entries, List.mem_append]
    rcases member with rfl | parameter | inBody
    · exact .inl (.inl (mem_entryOf.mpr ⟨symbol, rfl⟩))
    · exact .inl (.inr (members parameter))
    · exact .inr (ih inBody)
  | struct definition =>
    rcases List.mem_cons.mp member with rfl | field
    · exact List.mem_append_right _ (mem_entryOf.mpr ⟨symbol, rfl⟩)
    · exact List.mem_append_left _ (members field)
  | binding head initial ih =>
    rcases List.mem_append.mp member with inInitial | own
    · exact List.mem_append_left _ (ih inInitial)
    · obtain rfl := List.mem_singleton.mp own
      exact List.mem_append_right _ (mem_entryOf.mpr ⟨symbol, Option.or_none⟩)
  | combine rule first second ihFirst ihSecond =>
    rcases List.mem_append.mp member with inFirst | inSecond
    · exact List.mem_append_left _ (ihFirst inFirst)
    · exact List.mem_append_right _ (ihSecond inSecond)

/-- The symbols of declarations and, behind each with a body, that of the scope of the body. -/
def blockOf (declared : List Declared) : List SymbolIndex :=
  declared.flatMap fun item => item.declaration.entries

/-- The symbols from one on. -/
def block (start size : Nat) : List SymbolIndex := (List.range' start size).map SymbolIndex.mk

theorem block_append (start first second : Nat) :
    block start first ++ block (start + first) second = block start (first + second) := by
  rw [block, block, block, ← List.map_append, List.range'_append_1]

theorem blockOf_append (left right : List Declared) :
    blockOf (left ++ right) = blockOf left ++ blockOf right :=
  List.flatMap_append

theorem blockOf_members (start : Nat) (members : List Member) :
    blockOf (Member.declared (Member.number start members)) = block start members.length := by
  induction members generalizing start with
  | nil => rfl
  | cons first rest ih =>
    rw [List.length_cons, block, List.range'_succ, List.map_cons]
    exact congrArg (_ :: ·) (ih (start + 1))

/-- What is declared takes up consecutive symbols. -/
theorem blockOf_number (plan : Plan) (start : Nat) :
    blockOf (plan.number start).declared = block start plan.size := by
  induction plan generalizing start with
  | value | stated | reference => rfl
  | field span target name ih => exact ih start
  | expression span inner ih => exact ih start
  | external head => rfl
  | procedure head body ih =>
    -- the procedure and the scope of its body, then the parameters, then what the body declares
    have inside := block_append (start + 2) head.parameters.length body.size
    calc blockOf ((procedure head body).number start).declared
        = block start 2 ++ (block (start + 2) head.parameters.length ++
            block (start + 2 + head.parameters.length) body.size) := by
          rw [← blockOf_members, ← ih, ← blockOf_append]; rfl
      _ = block start (procedure head body).size := by
          rw [inside, block_append, size, Nat.add_assoc]
  | struct definition =>
    calc blockOf ((Plan.struct definition).number start).declared
        = block start 2 ++ block (start + 2) definition.fields.length := by rw [← blockOf_members]; rfl
      _ = block start (Plan.struct definition).size := by rw [block_append, size]
  | binding head initial ih =>
    -- what the initial value declares comes in front of the binding itself
    calc blockOf ((binding head initial).number start).declared
        = block start initial.size ++ block (start + initial.size) 1 := by
          rw [← ih, number, declared, blockOf_append]; rfl
      _ = block start (binding head initial).size := by rw [block_append, size]
  | combine rule first second ihFirst ihSecond =>
    rw [number, declared, blockOf_append, ihFirst, ihSecond, block_append, size]

theorem outline_members (start : Nat) (members : List Member) :
    (Member.declared (Member.number start members)).map Declared.outline =
      (Member.declared members).map Declared.outline := by
  induction members generalizing start with
  | nil => rfl
  | cons first rest ih => exact congrArg (_ :: ·) (ih (start + 1))

/-- Numbers change nothing about declarations but their symbols. -/
theorem outline_number (plan : Plan) (start : Nat) :
    (plan.number start).declared.map Declared.outline = plan.declared.map Declared.outline := by
  induction plan generalizing start with
  | value | stated | reference | external => rfl
  | field span target name ih => exact ih start
  | expression span inner ih => exact ih start
  | procedure head body ih =>
    simp only [number, declared, List.map_cons, List.map_append, outline_members, ih]
    simp only [Declared.outline, ProcedureHead.declaredWith, ProcedureHead.type_number]
    rfl
  | struct definition =>
    simp only [number, declared, List.map_cons, outline_members]
    simp only [Declared.outline, Struct.declared, Struct.type_number]
    rfl
  | binding head initial ih =>
    simp only [number, declared, List.map_append, ih]
    rfl
  | combine rule first second ihFirst ihSecond =>
    simp only [number, declared, List.map_append, ihFirst, ihSecond]

end Plan

end Cadence
