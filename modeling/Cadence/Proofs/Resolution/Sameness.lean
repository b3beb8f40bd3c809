import Cadence.Proofs.Resolution.Records

/-!
# What a walk leaves as it is

A walk looks up names and finds types, and leaves everything else in a tree as it is. So if it does not
change the plan of a tree, nor the types of the expressions in it, it does not change the tree.
-/
namespace Cadence

mutual

/-- The node without what is recorded for names in the types of expressions. -/
def Node.bare : Node → Node
  | .procedure span head body => .procedure span head (Expr.bareOption body)
  | .struct span declared => .struct span declared
  | .binding span head initializer => .binding span head (Expr.bareOption initializer)
  | .load span path => .load span path
  | .expression inner => .expression inner.bare
  | .assignment span target operator value => .assignment span target.bare operator value.bare

def Expr.bare : Expr → Expr
  | .mk info form => .mk { info with type := info.type.map Ty.bare } form.bare

def Form.bare : Form → Form
  | .bool value => .bool value
  | .integer value radix => .integer value radix
  | .real literal => .real literal
  | .text content => .text content
  | .character character => .character character
  | .reference binder symbol => .reference binder symbol
  | .field target field => .field target.bare field
  | .call callee arguments => .call callee.bare (Expr.bareAll arguments)
  | .binary left operator right => .binary left.bare operator right.bare
  | .unary operator operand => .unary operator operand.bare
  | .cast operand type => .cast operand.bare type
  | .block nodes => .block (Node.bareAll nodes)
  | .conditional isNegated condition consequent alternative =>
    .conditional isNegated condition.bare consequent.bare (Expr.bareOption alternative)
  | .loop isNegated condition body alternative =>
    .loop isNegated condition.bare body.bare (Expr.bareOption alternative)
  | .new type => .new type
  | .delete operand => .delete operand.bare
  | .defer node => .defer node.bare
  | .uninitialized => .uninitialized

def Expr.bareOption : Option Expr → Option Expr
  | none => none
  | some inner => some inner.bare

def Expr.bareAll : List Expr → List Expr
  | [] => []
  | first :: rest => first.bare :: Expr.bareAll rest

def Node.bareAll : List Node → List Node
  | [] => []
  | first :: rest => first.bare :: Node.bareAll rest

end

/-- The type of an expression as it is written. -/
def Expr.bareType (expression : Expr) : Option Ty := expression.type.map Ty.bare

theorem Expr.bare_eq {info : ExprInfo} {type : Option Ty} {form form' : Form} (forms : form'.bare = form.bare)
    (types : (mk { info with type } form').bareType = (mk info form).bareType) :
    (mk { info with type } form').bare = (mk info form).bare := by
  have same : type.map Ty.bare = info.type.map Ty.bare := types
  simp only [bare, forms, same]

/-- What became of a part of a tree has the same plan as before, and the expressions in it are of the same
types. -/
structure Agree (before now : Plan) (expressions expressions' : List Expr) : Prop where
  plan_eq : now = before
  types_eq : expressions'.map Expr.bareType = expressions.map Expr.bareType

namespace Agree

variable {before now second second' : Plan} {expressions expressions' further further' : List Expr}
  {whole whole' : Expr} {rule rule' : Rule} {span span' : Source.Span} {field field' : Identifier}

/-- The expression as a whole comes behind its parts. -/
theorem behind_parts (plan : now = before)
    (types : (expressions' ++ [whole']).map Expr.bareType = (expressions ++ [whole]).map Expr.bareType) :
    Agree before now expressions expressions' ∧ whole'.bareType = whole.bareType := by
  rw [List.map_append, List.map_append] at types
  obtain ⟨inner, own⟩ := List.append_inj' types rfl
  exact ⟨⟨plan, inner⟩, (List.cons.inj own).1⟩

theorem expression
    (agree : Agree (.expression span before) (.expression span' now) (expressions ++ [whole])
      (expressions' ++ [whole'])) :
    Agree before now expressions expressions' ∧ whole'.bareType = whole.bareType :=
  behind_parts (Plan.expression.inj agree.plan_eq).2 agree.types_eq

theorem access
    (agree : Agree (.field span before field) (.field span' now field') (expressions ++ [whole])
      (expressions' ++ [whole'])) :
    Agree before now expressions expressions' ∧ whole'.bareType = whole.bareType :=
  behind_parts (Plan.field.inj agree.plan_eq).2.1 agree.types_eq

/-- Two parts, of which the first one has as many expressions as its plan tells. -/
theorem combine
    (agree : Agree (.combine rule before second) (.combine rule' now second') (expressions ++ further)
      (expressions' ++ further'))
    (length : expressions.length = before.expressionCount)
    (length' : expressions'.length = now.expressionCount) :
    Agree before now expressions expressions' ∧ Agree second second' further further' := by
  obtain ⟨plan, types⟩ := agree
  obtain ⟨_, rfl, rfl⟩ := Plan.combine.inj plan
  rw [List.map_append, List.map_append] at types
  obtain ⟨first, rest⟩ := List.append_inj types (by rw [List.length_map, List.length_map, length, length'])
  exact ⟨⟨rfl, first⟩, rfl, rest⟩

/-- Only the first part has expressions. -/
theorem alone
    (agree : Agree (.combine rule before second) (.combine rule' now second') expressions expressions') :
    Agree before now expressions expressions' ∧ second' = second := by
  obtain ⟨_, first, rest⟩ := Plan.combine.inj agree.plan_eq
  exact ⟨⟨first, agree.types_eq⟩, rest⟩

end Agree

namespace Resolving

variable {walk : Walk}

theorem Ends.withinBody {α : Type} {content : Resolving α} {holds : α → Prop} (owner : SymbolIndex)
    (inside : ∀ start : Walk, content.Ends start fun result _ => holds result) :
    (withinBody owner content).Ends walk fun result _ => holds result := by
  apply Ends.bind_get
  apply Ends.behind
  intro scope met
  apply Ends.bind_modify
  refine (inside _).bind fun result last known => ?_
  apply Ends.bind_get
  split
  next =>
    split
    next => exact .behind fun _ _ => .pure known
    next => exact .fault _
  next => exact .fault _

/-- A type that is written down stays where it is written. -/
theorem annotated_ends_eq (type : Annotation) :
    (annotated type).Ends walk fun result _ => result.value = type.value → result = type := by
  refine .behind fun value _ => .pure ?_
  rintro rfl
  rfl

mutual

/-- A walk that changes neither the plan of a tree nor the types in it does not change the tree. -/
theorem Node.bare_resolve {walk : Walk} (node : Node) :
    node.resolve.Ends walk fun result _ =>
      Agree node.plan result.plan node.expressions result.expressions → result.bare = node.bare := by
  -- the heads are part of the plan, so that only the expressions in a node are left to compare
  cases node with
  | procedure span head body =>
    refine .behind fun found middle => ?_
    obtain ⟨owner, head'⟩ := found
    cases body with
    | none =>
      refine .pure fun agree => ?_
      obtain rfl : head' = head := Plan.external.inj agree.plan_eq
      rfl
    | some body =>
      have inside (start : Walk) : Ends (do head'.parameters.forM meetMember; return some (← body.resolve))
          start fun result _ => ∃ body', result = some body' ∧
            (Agree body.plan body'.plan body.expressions body'.expressions → body'.bare = body.bare) := by
        refine .behind fun _ _ => (Expr.bare_resolve body).bind fun body' _ same => ?_
        exact .pure ⟨body', rfl, same⟩
      refine (Ends.withinBody owner inside).bind ?_
      rintro _ after ⟨body', rfl, same⟩
      refine .pure fun agree => ?_
      obtain ⟨rfl, plan⟩ := Plan.procedure.inj agree.plan_eq
      rw [Node.bare, Node.bare, Expr.bareOption, Expr.bareOption, same ⟨plan, agree.types_eq⟩]
  | struct span declared =>
    refine .behind fun _ _ => .behind fun _ _ => .behind fun _ _ => .behind fun _ _ => ?_
    refine .pure fun agree => ?_
    rw [Node.bare, Node.bare, Plan.struct.inj agree.plan_eq]
  | binding span head initializer =>
    refine .behind fun type _ => ?_
    refine (Expr.bare_resolveOption initializer).bind fun initializer' _ same => ?_
    refine .behind fun _ _ => .behind fun _ _ => .pure fun agree => ?_
    obtain ⟨heads, plan⟩ := Plan.binding.inj agree.plan_eq
    rw [Node.bare, Node.bare, heads, same ⟨plan, agree.types_eq⟩]
  | load span path => exact .pure fun _ => rfl
  | expression inner =>
    refine (Expr.bare_resolve inner).bind fun inner' _ same => ?_
    refine .pure fun agree => ?_
    rw [Node.bare, Node.bare, same agree]
  | assignment span target operator value =>
    refine (Expr.bare_resolve target).bind fun target' _ first => ?_
    refine (Expr.bare_resolve value).bind fun value' _ second => ?_
    refine .pure fun agree => ?_
    obtain ⟨left, right⟩ := agree.combine target.length_expressions target'.length_expressions
    rw [Node.bare, Node.bare, first left, second right]

theorem Expr.bare_resolve {walk : Walk} (expression : Expr) :
    expression.resolve.Ends walk fun result _ =>
      Agree expression.plan result.plan expression.expressions result.expressions →
        result.bare = expression.bare := by
  obtain ⟨info, form⟩ := expression
  refine (Form.bare_resolve form info).bind fun result _ same => .pure same

theorem Form.bare_resolve {walk : Walk} (form : Form) (info : ExprInfo) :
    (form.resolve info.type).Ends walk fun result _ =>
      let before := Expr.mk info form
      let now := Expr.mk { info with type := result.2 } result.1
      Agree before.plan now.plan before.expressions now.expressions → now.bare = before.bare := by
  -- what is known of a whole is known of its parts, as their plans tell how many expressions each has
  cases form with
  | reference binder symbol =>
    refine .behind fun found _ => .behind fun type _ => .pure fun agree => ?_
    obtain ⟨_, _, rfl⟩ := Plan.reference.inj agree.plan_eq
    exact Expr.bare_eq rfl (List.cons.inj agree.types_eq).1
  | field target name =>
    refine (Expr.bare_resolve target).bind fun target' _ same => ?_
    refine .behind fun type _ => .pure fun agree => ?_
    obtain ⟨inner, types⟩ := agree.access
    refine Expr.bare_eq ?_ types
    rw [Form.bare, Form.bare, same inner]
  | call callee arguments =>
    refine (Expr.bare_resolve callee).bind fun callee' _ first => ?_
    refine (Expr.bare_resolveAll arguments).bind fun arguments' _ second => ?_
    refine .pure fun agree => ?_
    obtain ⟨inner, types⟩ := agree.expression
    obtain ⟨left, right⟩ := inner.combine callee.length_expressions callee'.length_expressions
    refine Expr.bare_eq ?_ types
    rw [Form.bare, Form.bare, first left, second right]
  | binary left operator right =>
    refine (Expr.bare_resolve left).bind fun left' _ first => ?_
    refine (Expr.bare_resolve right).bind fun right' _ second => ?_
    refine .pure fun agree => ?_
    obtain ⟨inner, types⟩ := agree.expression
    obtain ⟨lefts, rights⟩ := inner.combine left.length_expressions left'.length_expressions
    refine Expr.bare_eq ?_ types
    rw [Form.bare, Form.bare, first lefts, second rights]
  | unary operator operand =>
    refine (Expr.bare_resolve operand).bind fun operand' _ same => ?_
    refine .pure fun agree => ?_
    obtain ⟨inner, types⟩ := agree.expression
    refine Expr.bare_eq ?_ types
    rw [Form.bare, Form.bare, same inner.alone.1]
  | cast operand type =>
    refine (Expr.bare_resolve operand).bind fun operand' _ same => ?_
    refine (annotated_ends_eq type).bind fun type' _ kept => ?_
    refine .pure fun agree => ?_
    obtain ⟨inner, types⟩ := agree.expression
    obtain ⟨own, stated⟩ := inner.alone
    refine Expr.bare_eq ?_ types
    rw [Form.bare, Form.bare, same own, kept (Plan.stated.inj stated)]
  | block nodes =>
    refine (Node.bare_resolveAll nodes).bind fun nodes' _ same => ?_
    refine .pure fun agree => ?_
    obtain ⟨inner, types⟩ := agree.expression
    refine Expr.bare_eq ?_ types
    rw [Form.bare, Form.bare, same inner]
  | conditional isNegated condition consequent alternative =>
    refine (Expr.bare_resolve condition).bind fun condition' _ first => ?_
    refine (Expr.bare_resolve consequent).bind fun consequent' _ second => ?_
    refine (Expr.bare_resolveOption alternative).bind fun alternative' _ third => ?_
    refine .pure fun agree => ?_
    obtain ⟨inner, types⟩ := agree.expression
    obtain ⟨left, rest⟩ := inner.combine condition.length_expressions condition'.length_expressions
    obtain ⟨middle, right⟩ := rest.combine consequent.length_expressions consequent'.length_expressions
    refine Expr.bare_eq ?_ types
    rw [Form.bare, Form.bare, first left, second middle, third right]
  | loop isNegated condition body alternative =>
    refine (Expr.bare_resolve condition).bind fun condition' _ first => ?_
    refine (Expr.bare_resolve body).bind fun body' _ second => ?_
    refine (Expr.bare_resolveOption alternative).bind fun alternative' _ third => ?_
    refine .pure fun agree => ?_
    obtain ⟨inner, types⟩ := agree.expression
    obtain ⟨left, rest⟩ := inner.combine condition.length_expressions condition'.length_expressions
    obtain ⟨middle, right⟩ := rest.combine body.length_expressions body'.length_expressions
    refine Expr.bare_eq ?_ types
    rw [Form.bare, Form.bare, first left, second middle, third right]
  | new type =>
    refine (annotated_ends_eq type).bind fun type' _ kept => ?_
    refine .pure fun agree => ?_
    obtain ⟨_, stated, _⟩ := Plan.combine.inj (Plan.expression.inj agree.plan_eq).2
    refine Expr.bare_eq ?_ (List.cons.inj agree.types_eq).1
    rw [Form.bare, Form.bare, kept (Plan.stated.inj stated)]
  | delete operand =>
    refine (Expr.bare_resolve operand).bind fun operand' _ same => ?_
    refine .pure fun agree => ?_
    obtain ⟨inner, types⟩ := agree.expression
    refine Expr.bare_eq ?_ types
    rw [Form.bare, Form.bare, same inner.alone.1]
  | defer node =>
    refine (Node.bare_resolve node).bind fun node' _ same => ?_
    refine .pure fun agree => ?_
    obtain ⟨inner, types⟩ := agree.expression
    refine Expr.bare_eq ?_ types
    rw [Form.bare, Form.bare, same inner.alone.1]
  | bool | integer | real | text | character | uninitialized => exact .pure fun _ => rfl

theorem Expr.bare_resolveOption {walk : Walk} (expression : Option Expr) :
    (Expr.resolveOption expression).Ends walk fun result _ =>
      Agree (Expr.planOption expression) (Expr.planOption result) (Expr.expressionsOption expression)
        (Expr.expressionsOption result) → Expr.bareOption result = Expr.bareOption expression := by
  cases expression with
  | none => exact .pure fun _ => rfl
  | some inner =>
    exact (Expr.bare_resolve inner).bind fun inner' _ same => .pure fun agree => congrArg some (same agree)

theorem Expr.bare_resolveAll {walk : Walk} (expressions : List Expr) :
    (Expr.resolveAll expressions).Ends walk fun result _ =>
      Agree (Expr.planAll expressions) (Expr.planAll result) (Expr.expressionsAll expressions)
        (Expr.expressionsAll result) → Expr.bareAll result = Expr.bareAll expressions := by
  cases expressions with
  | nil => exact .pure fun _ => rfl
  | cons first rest =>
    refine (Expr.bare_resolve first).bind fun first' _ own => ?_
    refine (Expr.bare_resolveAll rest).bind fun rest' _ others => ?_
    refine .pure fun agree => ?_
    obtain ⟨left, right⟩ := agree.combine first.length_expressions first'.length_expressions
    rw [Expr.bareAll, Expr.bareAll, own left, others right]

theorem Node.bare_resolveAll {walk : Walk} (nodes : List Node) :
    (Node.resolveAll nodes).Ends walk fun result _ =>
      Agree (Node.planAll nodes) (Node.planAll result) (Node.expressionsAll nodes)
        (Node.expressionsAll result) → Node.bareAll result = Node.bareAll nodes := by
  cases nodes with
  | nil => exact .pure fun _ => rfl
  | cons first rest =>
    refine (Node.bare_resolve first).bind fun first' _ own => ?_
    refine (Node.bare_resolveAll rest).bind fun rest' _ others => ?_
    refine .pure fun agree => ?_
    obtain ⟨left, right⟩ := agree.combine first.length_expressions first'.length_expressions
    rw [Node.bareAll, Node.bareAll, own left, others right]

end

end Resolving

end Cadence
