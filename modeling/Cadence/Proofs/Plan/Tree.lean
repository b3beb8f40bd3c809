import Cadence.Proofs.Parse.WellFormed
import Cadence.Proofs.Plan.Basic
import Cadence.Proofs.Syntax.Expressions

/-!
# The plans of trees

Every tree has a plan. It does not say how the values are used, which has nothing to do with types,
and it keeps apart from each other only those forms of expressions in which a name or a field is
looked up.
-/
namespace Cadence

mutual

def Node.plan : Node → Plan
  | .procedure _ head none => .external head
  | .procedure _ head (some body) => .procedure head body.plan
  | .struct _ declared => .struct declared
  | .binding _ head initializer => .binding head (Expr.planOption initializer)
  | .load _ _ => .value none
  | .expression inner => inner.plan
  | .assignment _ target _ value => .combine .nothing target.plan value.plan

def Expr.plan : Expr → Plan
  | .mk info form => form.plan info

def Form.plan (info : ExprInfo) : Form → Plan
  | .reference binder symbol => .reference info.span binder symbol
  | .field target field => .field info.span target.plan field
  | .call callee arguments =>
    .expression info.span (.combine .result callee.plan (Expr.planAll arguments))
  | .binary left operator right =>
    .expression info.span (.combine (.binary operator.value) left.plan right.plan)
  | .unary operator operand =>
    .expression info.span (.combine (.unary operator.value) operand.plan (.value none))
  | .cast operand type =>
    .expression info.span (.combine .second operand.plan (.stated type.value))
  | .block nodes => .expression info.span (Node.planAll nodes)
  | .conditional _ condition consequent alternative =>
    -- there is only a value if there is one in any case
    let rule : Rule := if alternative.isSome then .first else .nothing
    .expression info.span (.combine .second condition.plan
      (.combine rule consequent.plan (Expr.planOption alternative)))
  | .loop _ condition body alternative =>
    .expression info.span (.combine .nothing condition.plan
      (.combine .nothing body.plan (Expr.planOption alternative)))
  | .new type =>
    .expression info.span (.combine (.unary .caret) (.stated type.value) (.value none))
  | .delete operand => .expression info.span (.combine .nothing operand.plan (.value none))
  | .defer node => .expression info.span (.combine .nothing node.plan (.value none))
  | .bool _ | .integer _ _ | .real _ | .text _ | .character _ | .uninitialized =>
    .expression info.span (.value info.type)

def Expr.planOption : Option Expr → Plan
  | none => .value none
  | some inner => inner.plan

def Expr.planAll : List Expr → Plan
  | [] => .value none
  | first :: rest => .combine .nothing first.plan (Expr.planAll rest)

/-- Some nodes one after the other, of which the last one determines the type. -/
def Node.planAll : List Node → Plan
  | [] => .value none
  | first :: rest =>
    .combine (if rest.isEmpty then .first else .second) first.plan (Node.planAll rest)

end

theorem Node.planAll_eq (nodes : List Node) : Node.planAll nodes = .sequence (nodes.map Node.plan) := by
  induction nodes with
  | nil => rfl
  | cons first rest ih => rw [planAll, ih, List.map_cons, Plan.sequence, List.isEmpty_map]

/-- How an expression of some form makes use of symbols and types. -/
def Form.usage : Form → Usage
  | .reference _ symbol => .reference symbol
  | .field target name => .access target.type name
  | _ => .other

theorem Form.exists_reference {form : Form} {symbol : Option SymbolIndex}
    (usage : form.usage = .reference symbol) : ∃ binder, form = .reference binder symbol := by
  cases form with
  | reference binder found =>
    obtain rfl := Usage.reference.inj usage
    exact ⟨binder, rfl⟩
  | _ => cases usage

/-- What is known about an expression. -/
def Expr.finding (expression : Expr) : Finding :=
  ⟨expression.span, expression.form.usage, expression.type⟩

mutual

/-- The plan of a tree makes the declarations that the tree makes. -/
theorem Node.declarations_plan (node : Node) : node.plan.declarations = node.declarations := by
  cases node with
  | procedure span head body =>
    cases body with
    | none => rfl
    | some body => rw [Node.plan, Plan.declarations, Node.declarations, body.declarations_plan]
  | struct | load => rfl
  | binding span head initializer =>
    rw [Node.plan, Plan.declarations, Node.declarations, Expr.declarations_planOption]
  | expression inner => exact inner.declarations_plan
  | assignment span target operator value =>
    rw [Node.plan, Plan.declarations, Node.declarations, target.declarations_plan, value.declarations_plan]

theorem Expr.declarations_plan (expression : Expr) :
    expression.plan.declarations = expression.declarations := by
  obtain ⟨info, form⟩ := expression
  exact form.declarations_plan info

theorem Form.declarations_plan (form : Form) (info : ExprInfo) :
    (form.plan info).declarations = form.declarations := by
  cases form with
  | field target name => exact target.declarations_plan
  | call callee arguments =>
    simp only [Form.plan, Plan.declarations, Form.declarations, callee.declarations_plan,
      Expr.declarations_planAll]
  | binary left operator right =>
    simp only [Form.plan, Plan.declarations, Form.declarations, left.declarations_plan,
      right.declarations_plan]
  | unary operator operand | cast operand type | delete operand =>
    simp only [Form.plan, Plan.declarations, Form.declarations, operand.declarations_plan, List.append_nil]
  | block nodes => exact Node.declarations_planAll nodes
  | conditional isNegated condition consequent alternative =>
    simp only [Form.plan, Plan.declarations, Form.declarations, condition.declarations_plan,
      consequent.declarations_plan, Expr.declarations_planOption]
  | loop isNegated condition body alternative =>
    simp only [Form.plan, Plan.declarations, Form.declarations, condition.declarations_plan,
      body.declarations_plan, Expr.declarations_planOption]
  | defer node =>
    simp only [Form.plan, Plan.declarations, Form.declarations, node.declarations_plan, List.append_nil]
  | bool | integer | real | text | character | reference | new | uninitialized => rfl

theorem Expr.declarations_planOption (expression : Option Expr) :
    (Expr.planOption expression).declarations = Expr.declarationsOption expression := by
  cases expression with
  | none => rfl
  | some inner => exact inner.declarations_plan

theorem Expr.declarations_planAll (expressions : List Expr) :
    (Expr.planAll expressions).declarations = Expr.declarationsAll expressions := by
  cases expressions with
  | nil => rfl
  | cons first rest =>
    rw [Expr.planAll, Plan.declarations, Expr.declarationsAll, first.declarations_plan,
      Expr.declarations_planAll rest]

theorem Node.declarations_planAll (nodes : List Node) :
    (Node.planAll nodes).declarations = Node.declarationsAll nodes := by
  cases nodes with
  | nil => rfl
  | cons first rest =>
    rw [Node.planAll, Plan.declarations, Node.declarationsAll, first.declarations_plan,
      Node.declarations_planAll rest]

end

mutual

/-- Something is found out about each expression in a tree. -/
theorem Node.length_expressions (node : Node) : node.expressions.length = node.plan.expressionCount := by
  cases node with
  | procedure span head body =>
    cases body with
    | none => rfl
    | some body => exact body.length_expressions
  | struct | load => rfl
  | binding span head initializer => exact Expr.length_expressionsOption initializer
  | expression inner => exact inner.length_expressions
  | assignment span target operator value =>
    simp [Node.expressions, Node.plan, Plan.expressionCount, target.length_expressions, value.length_expressions]

theorem Expr.length_expressions (expression : Expr) :
    expression.expressions.length = expression.plan.expressionCount := by
  obtain ⟨info, form⟩ := expression
  have inner := form.length_expressions info
  rw [Expr.expressions, List.length_append, Expr.plan]
  exact inner

theorem Form.length_expressions (form : Form) (info : ExprInfo) :
    form.expressions.length + 1 = (form.plan info).expressionCount := by
  cases form with
  | field target name => simp [Form.expressions, Form.plan, Plan.expressionCount, target.length_expressions]
  | call callee arguments =>
    simp [Form.expressions, Form.plan, Plan.expressionCount, callee.length_expressions,
      Expr.length_expressionsAll]
  | binary left operator right =>
    simp [Form.expressions, Form.plan, Plan.expressionCount, left.length_expressions, right.length_expressions]
  | unary operator operand | cast operand type | delete operand =>
    simp [Form.expressions, Form.plan, Plan.expressionCount, operand.length_expressions]
  | block nodes => simp [Form.expressions, Form.plan, Plan.expressionCount, Node.length_expressionsAll]
  | conditional isNegated condition consequent alternative =>
    simp [Form.expressions, Form.plan, Plan.expressionCount, condition.length_expressions,
      consequent.length_expressions, Expr.length_expressionsOption]
  | loop isNegated condition body alternative =>
    simp [Form.expressions, Form.plan, Plan.expressionCount, condition.length_expressions,
      body.length_expressions, Expr.length_expressionsOption]
  | defer node => simp [Form.expressions, Form.plan, Plan.expressionCount, node.length_expressions]
  | bool | integer | real | text | character | reference | new | uninitialized => rfl

theorem Expr.length_expressionsOption (expression : Option Expr) :
    (Expr.expressionsOption expression).length = (Expr.planOption expression).expressionCount := by
  cases expression with
  | none => rfl
  | some inner => exact inner.length_expressions

theorem Expr.length_expressionsAll (expressions : List Expr) :
    (Expr.expressionsAll expressions).length = (Expr.planAll expressions).expressionCount := by
  cases expressions with
  | nil => rfl
  | cons first rest =>
    rw [Expr.expressionsAll, List.length_append, Expr.planAll, Plan.expressionCount,
      first.length_expressions, Expr.length_expressionsAll rest]

theorem Node.length_expressionsAll (nodes : List Node) :
    (Node.expressionsAll nodes).length = (Node.planAll nodes).expressionCount := by
  cases nodes with
  | nil => rfl
  | cons first rest =>
    rw [Node.expressionsAll, List.length_append, Node.planAll, Plan.expressionCount,
      first.length_expressions, Node.length_expressionsAll rest]

end

mutual

/-- How values are used does not matter to the plan. -/
theorem Node.plan_markUsage (required tail : Bool) (node : Node) :
    (node.markUsage required tail).plan = node.plan := by
  cases node with
  | procedure span head body =>
    cases body with
    | none => rfl
    | some body => rw [Node.markUsage, Expr.markOption, Node.plan, Node.plan, body.plan_markUsage]
  | struct | load => rfl
  | binding span head initializer => rw [Node.markUsage, Node.plan, Node.plan, Expr.plan_markOption]
  | expression inner => exact inner.plan_markUsage required tail
  | assignment span target operator value =>
    rw [Node.markUsage, Node.plan, Node.plan, target.plan_markUsage, value.plan_markUsage]

theorem Expr.plan_markUsage (required tail : Bool) (expression : Expr) :
    (expression.markUsage required tail).plan = expression.plan := by
  obtain ⟨info, form⟩ := expression
  exact form.plan_markUsage required rfl rfl

theorem Form.plan_markUsage (required : Bool) (form : Form) {info marked : ExprInfo}
    (span : marked.span = info.span) (type : marked.type = info.type) :
    (form.markUsage required).plan marked = form.plan info := by
  cases form with
  | field target name => simp only [Form.markUsage, Form.plan, target.plan_markUsage, span]
  | call callee arguments =>
    simp only [Form.markUsage, Form.plan, callee.plan_markUsage, Expr.plan_markOperands, span]
  | binary left operator right =>
    simp only [Form.markUsage, Form.plan, left.plan_markUsage, right.plan_markUsage, span]
  | unary operator operand | cast operand annotated | delete operand =>
    simp only [Form.markUsage, Form.plan, operand.plan_markUsage, span]
  | block nodes => simp only [Form.markUsage, Form.plan, Node.plan_markSequence, span]
  | conditional isNegated condition consequent alternative =>
    have present : (Expr.markOption required false alternative).isSome = alternative.isSome := by
      cases alternative <;> rfl
    simp only [Form.markUsage, Form.plan, condition.plan_markUsage, consequent.plan_markUsage,
      Expr.plan_markOption, present, span]
  | loop isNegated condition body alternative =>
    simp only [Form.markUsage, Form.plan, condition.plan_markUsage, body.plan_markUsage,
      Expr.plan_markOption, span]
  | defer node => simp only [Form.markUsage, Form.plan, node.plan_markUsage, span]
  | bool | integer | real | text | character | reference | new | uninitialized =>
    simp only [Form.markUsage, Form.plan, span, type]

theorem Expr.plan_markOption (required tail : Bool) (expression : Option Expr) :
    Expr.planOption (Expr.markOption required tail expression) = Expr.planOption expression := by
  cases expression with
  | none => rfl
  | some inner => exact inner.plan_markUsage required tail

theorem Expr.plan_markOperands (expressions : List Expr) :
    Expr.planAll (Expr.markOperands expressions) = Expr.planAll expressions := by
  cases expressions with
  | nil => rfl
  | cons first rest =>
    rw [Expr.markOperands, Expr.planAll, Expr.planAll, first.plan_markUsage, Expr.plan_markOperands rest]

theorem Node.plan_markSequence (required : Bool) (nodes : List Node) :
    Node.planAll (Node.markSequence required nodes) = Node.planAll nodes := by
  match nodes with
  | [] => rfl
  | [last] => simp only [Node.markSequence, Node.planAll, last.plan_markUsage]
  | first :: second :: rest =>
    have others := Node.plan_markSequence required (second :: rest)
    have further : (Node.markSequence required (second :: rest)).isEmpty = false := by
      cases rest <;> rfl
    rw [Node.markSequence, Node.planAll, Node.planAll, first.plan_markUsage, others, further]
    rfl

end

theorem Node.planAll_markUsage (nodes : List Node) :
    Node.planAll (nodes.map (Node.markUsage false false)) = Node.planAll nodes := by
  rw [planAll_eq, planAll_eq, List.map_map]
  congr 1
  exact List.map_congr_left fun node _ => node.plan_markUsage false false

/-- Nothing is recorded in a plan yet, neither of what it declares nor of the names in it. There are no
names in the types of literals. -/
def Plan.IsBlank : Plan → Prop
  | value type => ∀ found ∈ type, found.AllNames fun _ _ => False
  | stated type => type.IsWritten
  | reference _ _ symbol => symbol = none
  | .field _ target _ => target.IsBlank
  | expression _ inner => inner.IsBlank
  | external head => head.IsWellFormed
  | procedure head body => head.IsWellFormed ∧ body.IsBlank
  | struct declared => declared.IsWellFormed
  | binding head initial => head.IsWellFormed ∧ initial.IsBlank
  | combine _ first second => first.IsBlank ∧ second.IsBlank

theorem Plan.IsBlank.allWritten {plan : Plan} (blank : plan.IsBlank) : plan.AllWritten Ty.IsWritten := by
  have heads {head : ProcedureHead} (formed : head.IsWellFormed) : head.AllTypes Ty.IsWritten :=
    ⟨fun parameter member => (formed.parameters parameter member).2, formed.result⟩
  induction plan with
  | value | stated => exact blank
  | reference => trivial
  | field span target name ih => exact ih blank
  | expression span inner ih => exact ih blank
  | external head => exact heads blank
  | procedure head body ih => exact ⟨heads blank.1, ih blank.2⟩
  | struct declared => exact fun field member => (blank.fields field member).2
  | binding head initial ih => exact ⟨blank.1.type, ih blank.2⟩
  | combine rule first second ihFirst ihSecond => exact ⟨ihFirst blank.1, ihSecond blank.2⟩

theorem Plan.isBlank_nothing : (Plan.value none).IsBlank := by simp [IsBlank]

mutual

/-- The plan of a parsed tree is blank. -/
theorem Node.IsWellFormed.isBlank {node : Node} (wellFormed : node.IsWellFormed) : node.plan.IsBlank := by
  cases node with
  | procedure span head body =>
    obtain ⟨headFormed, _, bodyFormed⟩ := wellFormed
    cases body with
    | none => exact headFormed
    | some body => exact ⟨headFormed, Expr.IsWellFormed.isBlank bodyFormed⟩
  | struct span declared => exact wellFormed
  | binding span head initializer =>
    refine ⟨wellFormed.1, ?_⟩
    cases initializer with
    | none => exact Plan.isBlank_nothing
    | some value =>
      rcases wellFormed.2 with lacks | formed
      · obtain ⟨info, form⟩ := value
        obtain ⟨rfl, _, _, type⟩ := lacks
        simp [Expr.planOption, Expr.plan, Form.plan, Plan.IsBlank, type, Form.statedType?]
      · exact formed.isBlank
  | load span path => exact Plan.isBlank_nothing
  | expression inner => exact Expr.IsWellFormed.isBlank wellFormed
  | assignment span target operator value => exact ⟨wellFormed.1.isBlank, wellFormed.2.2.2.isBlank⟩

theorem Expr.IsWellFormed.isBlank {expression : Expr} (wellFormed : expression.IsWellFormed) :
    expression.plan.IsBlank := by
  obtain ⟨info, form⟩ := expression
  exact wellFormed.2.isBlank wellFormed.1

theorem Form.IsWellFormed.isBlank {form : Form} (wellFormed : form.IsWellFormed) {info : ExprInfo}
    (unmarked : info.IsUnmarked form) : (form.plan info).IsBlank := by
  cases form with
  | field target name => exact Expr.IsWellFormed.isBlank wellFormed
  | call callee arguments => exact ⟨wellFormed.1.isBlank, Expr.isBlank_all wellFormed.2⟩
  | binary left operator right => exact ⟨wellFormed.1.isBlank, wellFormed.2.2.isBlank⟩
  | unary operator operand => exact ⟨wellFormed.2.isBlank, Plan.isBlank_nothing⟩
  | cast operand type => exact ⟨wellFormed.1.isBlank, wellFormed.2⟩
  | block nodes => exact Node.isBlank_all wellFormed
  | conditional isNegated condition consequent alternative =>
    exact ⟨wellFormed.1.isBlank, wellFormed.2.1.isBlank, Expr.isBlank_option wellFormed.2.2⟩
  | loop isNegated condition body alternative =>
    exact ⟨wellFormed.1.isBlank, wellFormed.2.1.isBlank, Expr.isBlank_option wellFormed.2.2⟩
  | new type => exact ⟨wellFormed, Plan.isBlank_nothing⟩
  | delete operand => exact ⟨Expr.IsWellFormed.isBlank wellFormed, Plan.isBlank_nothing⟩
  | defer node => exact ⟨Node.IsWellFormed.isBlank wellFormed, Plan.isBlank_nothing⟩
  | reference binder symbol => exact wellFormed
  | bool | integer | real | text | character | uninitialized =>
    simp [Form.plan, Plan.IsBlank, unmarked.2.2, Form.statedType?, Ty.AllNames]

theorem Expr.isBlank_option {expression : Option Expr}
    (wellFormed : Expr.IsWellFormedOption expression) : (Expr.planOption expression).IsBlank := by
  cases expression with
  | none => exact Plan.isBlank_nothing
  | some inner => exact Expr.IsWellFormed.isBlank wellFormed

theorem Expr.isBlank_all {expressions : List Expr} (wellFormed : Expr.IsWellFormedAll expressions) :
    (Expr.planAll expressions).IsBlank := by
  cases expressions with
  | nil => exact Plan.isBlank_nothing
  | cons first rest => exact ⟨wellFormed.1.isBlank, Expr.isBlank_all wellFormed.2⟩

theorem Node.isBlank_all {nodes : List Node} (wellFormed : Node.IsWellFormedAll nodes) :
    (Node.planAll nodes).IsBlank := by
  cases nodes with
  | nil => exact Plan.isBlank_nothing
  | cons first rest => exact ⟨wellFormed.1.isBlank, Node.isBlank_all wellFormed.2⟩

end

end Cadence
