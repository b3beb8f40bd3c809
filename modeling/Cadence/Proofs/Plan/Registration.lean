import Cadence.Proofs.Plan.Numbering
import Cadence.Proofs.Resolution.Runs

/-!
# Registration numbers plans

When a tree is registered, its plan is given the symbols from the end of the table on, and the types
that are written down in it are recorded for them. The plans of a unit are therefore those of its
trees, numbered one after the other.
-/
namespace Cadence

open Source (Span)

/-- The later recorded of two lists may come first if no symbol is in both of them. -/
theorem Types.record_comm (types : Types) {first second : List (SymbolIndex × Option Ty)}
    (distinct : (first.map Prod.fst).Disjoint (second.map Prod.fst)) :
    types.record (first ++ second) = types.record (second ++ first) := by
  funext index
  rw [record_append, record_append]
  by_cases later : index ∈ second.map Prod.fst
  · rw [record_of_notMem fun early => distinct early later]
    exact record_of_mem later
  · rw [record_of_notMem later]
    by_cases early : index ∈ first.map Prod.fst
    · exact record_of_mem early
    · rw [record_of_notMem early, record_of_notMem early, record_of_notMem later]

theorem Member.map_number {α : Type} (view : Identifier → Annotation → α) (start : Nat)
    (members : List Member) :
    (Member.number start members).map (fun member => view member.binder member.type) =
      members.map fun member => view member.binder member.type := by
  induction members generalizing start with
  | nil => rfl
  | cons first rest ih => simp [number, ih]

/-- The symbols of the parameters have nothing to do with the type of a procedure. -/
theorem ProcedureHead.type_number (head : ProcedureHead) (start : Nat) (symbol : Option SymbolIndex) :
    { head with parameters := Member.number start head.parameters, symbol }.type = head.type :=
  congrArg (Ty.procedure · head.isVariadic _) <|
    Member.map_number (fun binder type => (Ty.parameterName? binder.value, type.value)) start head.parameters

theorem Struct.type_number (struct : Struct) (start : Nat) (symbol : Option SymbolIndex) :
    { struct with fields := Member.number start struct.fields, symbol }.type = struct.type :=
  congrArg (Ty.struct _) <|
    Member.map_number (fun binder type => (binder.value, type.value)) start struct.fields

namespace SymbolBuilder

theorem type?_add (builder : SymbolBuilder) (name : String) (kind : SymbolKind) (type : Option Ty)
    (span : Span) :
    (builder.add name kind type span).table.type? =
      Function.update builder.table.type? builder.nextIndex type := by
  funext ⟨index⟩
  simp only [add, SymbolTable.push, SymbolTable.modify, SymbolTable.type?, SymbolTable.symbol?,
    Array.getElem?_modify, Array.getElem?_push, Function.update_apply, nextIndex, SymbolTable.size,
    SymbolIndex.mk.injEq]
  by_cases new : index = builder.table.symbols.size
  · subst new
    split <;> simp
  · rw [if_neg new, if_neg new]
    -- a scope that comes to list the symbol keeps its own type
    split
    · cases builder.table.symbols[index]? <;> rfl
    · rfl

/-- Nothing is recorded for a scope. -/
theorem type?_enter (builder : SymbolBuilder) (span : Span) :
    (builder.enter span).table.type? = builder.table.type? := by
  rw [enter]
  refine (builder.type?_add "" .scope none span).trans (Function.update_eq_self_iff.mpr ?_)
  simp [SymbolTable.type?, SymbolTable.symbol?, nextIndex, SymbolTable.size]

theorem size_enter (builder : SymbolBuilder) (span : Span) :
    (builder.enter span).table.size = builder.table.size + 1 :=
  builder.size_add _ _ _ _

/-- A plan is numbered by what is registered, and what is written down in it is recorded. -/
structure Numbers (before after : SymbolBuilder) (plan numbered : Plan) : Prop where
  plan_eq : numbered = plan.number before.table.size
  size_eq : after.table.size = before.table.size + plan.size
  types_eq : after.table.type? = Types.record before.table.type? numbered.entries

namespace Numbers

variable {before middle after : SymbolBuilder} {plan numbered first second first' second' : Plan}

theorem value (type : Option Ty) : before.Numbers before (.value type) (.value type) := ⟨rfl, rfl, rfl⟩

theorem field (numbers : before.Numbers after plan numbered) (span : Span) (name : Identifier) :
    before.Numbers after (.field span plan name) (.field span numbered name) :=
  ⟨congrArg (Plan.field span · name) numbers.plan_eq, numbers.size_eq, numbers.types_eq⟩

theorem expression (numbers : before.Numbers after plan numbered) (span : Span) :
    before.Numbers after (.expression span plan) (.expression span numbered) :=
  ⟨congrArg (Plan.expression span) numbers.plan_eq, numbers.size_eq, numbers.types_eq⟩

theorem combine (left : before.Numbers middle first first') (right : middle.Numbers after second second')
    (rule : Rule) : before.Numbers after (.combine rule first second) (.combine rule first' second') where
  plan_eq := by rw [Plan.number, left.plan_eq, right.plan_eq, left.size_eq]
  size_eq := by rw [Plan.size, right.size_eq, left.size_eq, Nat.add_assoc]
  types_eq := by rw [Plan.entries, Types.record_append, right.types_eq, left.types_eq]

/-- The tree is combined with nothing. -/
theorem alone (numbers : before.Numbers after plan numbered) (rule : Rule) (type : Option Ty) :
    before.Numbers after (.combine rule plan (.value type)) (.combine rule numbered (.value type)) :=
  numbers.combine (.value type) rule

end Numbers

end SymbolBuilder

open SymbolBuilder (Numbers)
open Registration (run_add run_bind run_pure run_within)

namespace Registration

theorem run_members (members : List Member) (builder : SymbolBuilder) :
    ((members.mapM member).run builder).1 = Member.number builder.table.size members ∧
      ((members.mapM member).run builder).2.table.size = builder.table.size + members.length ∧
      ((members.mapM member).run builder).2.table.type? =
        Types.record builder.table.type? (Member.entries (Member.number builder.table.size members)) := by
  induction members generalizing builder with
  | nil => exact ⟨rfl, rfl, rfl⟩
  | cons first rest ih =>
    obtain ⟨members_eq, size_eq, types_eq⟩ :=
      ih (builder.add first.binder.value .binding (some first.type.value) first.binder.span)
    rw [SymbolBuilder.size_add] at members_eq size_eq types_eq
    rw [SymbolBuilder.type?_add] at types_eq
    simp only [List.mapM_cons, member, run_bind, run_add, run_pure, Member.number, List.length_cons]
    exact ⟨congrArg _ members_eq, size_eq.trans (by omega), types_eq⟩

/-- A scope follows the symbol that it belongs to, and the members in it come next. -/
theorem run_members_within (members : List Member) (builder : SymbolBuilder) (name : String)
    (kind : SymbolKind) (type : Ty) (span bodySpan : Span) :
    let inside := (members.mapM member).run ((builder.add name kind (some type) span).enter bodySpan)
    let numbered := Member.number (builder.table.size + 2) members
    inside.1 = numbered ∧
      inside.2.table.size = builder.table.size + 2 + members.length ∧
      inside.2.table.type? = Types.record builder.table.type?
        (entryOf (some builder.nextIndex) (some type) ++ Member.entries numbered) := by
  obtain ⟨members_eq, size_eq, types_eq⟩ :=
    run_members members ((builder.add name kind (some type) span).enter bodySpan)
  rw [SymbolBuilder.size_enter, SymbolBuilder.size_add] at members_eq size_eq types_eq
  rw [SymbolBuilder.type?_enter, SymbolBuilder.type?_add] at types_eq
  exact ⟨members_eq, size_eq, types_eq⟩

theorem isSome_registerOption (expression : Option Expr) (builder : SymbolBuilder) :
    ((Expr.registerOption expression).run builder).1.isSome = expression.isSome := by
  cases expression <;> rfl

theorem isEmpty_registerAll (nodes : List Node) (builder : SymbolBuilder) :
    ((Node.registerAll nodes).run builder).1.isEmpty = nodes.isEmpty := by
  cases nodes <;> rfl

end Registration

open Registration (named run_members_within isSome_registerOption isEmpty_registerAll)

mutual

theorem Node.numbers_register (node : Node) (builder : SymbolBuilder) :
    builder.Numbers (node.register.run builder).2 node.plan (node.register.run builder).1.plan := by
  cases node with
  | procedure span head body =>
    cases body with
    | none => exact ⟨rfl, builder.size_add _ _ _ _, builder.type?_add _ _ _ _⟩
    | some body =>
      -- the symbol, the scope and the parameters are made in front of the body
      obtain ⟨members_eq, size_eq, types_eq⟩ := run_members_within head.parameters builder
        (named head.binder span).value .procedure head.type (named head.binder span).span body.span
      simp only [Node.register, run_bind, run_add, run_within, run_pure, Node.plan, members_eq]
      generalize (head.parameters.mapM Registration.member).run _ = parameters at size_eq types_eq ⊢
      have inside := body.numbers_register parameters.2
      constructor
      case plan_eq => rw [Plan.number, inside.plan_eq, size_eq]; rfl
      case size_eq => rw [SymbolBuilder.leave, inside.size_eq, size_eq, Plan.size]; omega
      case types_eq =>
        rw [SymbolBuilder.leave, inside.types_eq, types_eq, Plan.entries, Types.record_append,
          ProcedureHead.entries, head.type_number, Types.record_append, Types.record_append]
  | struct span declared =>
    obtain ⟨members_eq, size_eq, types_eq⟩ := run_members_within declared.fields builder
      (named declared.binder span).value .struct declared.type (named declared.binder span).span span
    simp only [Node.register, run_bind, run_add, run_within, run_pure, Node.plan, members_eq]
    constructor
    case plan_eq => rfl
    case size_eq => rw [SymbolBuilder.leave, size_eq, Plan.size]; omega
    case types_eq =>
      rw [SymbolBuilder.leave, types_eq, Plan.entries, Types.record_comm, Struct.entries,
        declared.type_number]
      -- the symbol comes first and the members behind the scope
      intro index own member
      obtain rfl : index = builder.nextIndex := by simpa using own
      have inside := Member.mem_symbols_number member
      dsimp only [SymbolBuilder.nextIndex] at inside
      omega
  | binding span head initializer =>
    have inside := Expr.numbers_registerOption initializer builder
    simp only [Node.register, run_bind, run_add, run_pure, Node.plan]
    constructor
    case plan_eq =>
      rw [Plan.number, ← inside.plan_eq, ← inside.size_eq]
      rfl
    case size_eq => rw [SymbolBuilder.size_add, inside.size_eq, Plan.size, Nat.add_assoc]
    case types_eq =>
      rw [SymbolBuilder.type?_add, inside.types_eq, Plan.entries, Types.record_append]
      simp [BindingHead.entries, entryOf, Types.record]
  | load => exact .value none
  | expression inner => exact inner.numbers_register builder
  | assignment span target operator value =>
    have left := target.numbers_register builder
    exact left.combine (value.numbers_register _) .nothing

theorem Expr.numbers_register (expression : Expr) (builder : SymbolBuilder) :
    builder.Numbers (expression.register.run builder).2 expression.plan
      (expression.register.run builder).1.plan := by
  obtain ⟨info, form⟩ := expression
  exact form.numbers_register info builder

theorem Form.numbers_register (form : Form) (info : ExprInfo) (builder : SymbolBuilder) :
    builder.Numbers (form.register.run builder).2 (form.plan info)
      ((form.register.run builder).1.plan info) := by
  -- parts are registered from left to right, which is how a plan numbers them
  cases form with
  | field target name => exact (target.numbers_register builder).field info.span name
  | call callee arguments =>
    have left := callee.numbers_register builder
    exact (left.combine (Expr.numbers_registerAll arguments _) .result).expression info.span
  | binary left operator right =>
    have first := left.numbers_register builder
    exact (first.combine (right.numbers_register _) (.binary operator.value)).expression info.span
  | unary operator operand =>
    exact ((operand.numbers_register builder).alone (.unary operator.value) none).expression info.span
  | cast operand type =>
    have inner := operand.numbers_register builder
    exact (inner.combine ⟨rfl, rfl, rfl⟩ .second).expression info.span
  | block nodes => exact (Node.numbers_registerAll nodes builder).expression info.span
  | conditional isNegated condition consequent alternative =>
    have first := condition.numbers_register builder
    have second := consequent.numbers_register (condition.register.run builder).2
    have third := Expr.numbers_registerOption alternative
      (consequent.register.run (condition.register.run builder).2).2
    have whole := first.combine (second.combine third (if alternative.isSome then .first else .nothing)) .second
    simp only [Form.register, run_bind, run_pure, Form.plan, isSome_registerOption]
    exact whole.expression info.span
  | loop isNegated condition body alternative =>
    have first := condition.numbers_register builder
    have second := body.numbers_register (condition.register.run builder).2
    have third := Expr.numbers_registerOption alternative
      (body.register.run (condition.register.run builder).2).2
    exact (first.combine (second.combine third .nothing) .nothing).expression info.span
  | delete operand =>
    exact ((operand.numbers_register builder).alone .nothing none).expression info.span
  | defer node => exact ((node.numbers_register builder).alone .nothing none).expression info.span
  | bool | integer | real | text | character | uninitialized =>
    exact (Numbers.value info.type).expression info.span
  | reference | new => exact ⟨rfl, rfl, rfl⟩

theorem Expr.numbers_registerOption (expression : Option Expr) (builder : SymbolBuilder) :
    builder.Numbers ((Expr.registerOption expression).run builder).2 (Expr.planOption expression)
      (Expr.planOption ((Expr.registerOption expression).run builder).1) := by
  cases expression with
  | none => exact .value none
  | some inner => exact inner.numbers_register builder

theorem Expr.numbers_registerAll (expressions : List Expr) (builder : SymbolBuilder) :
    builder.Numbers ((Expr.registerAll expressions).run builder).2 (Expr.planAll expressions)
      (Expr.planAll ((Expr.registerAll expressions).run builder).1) := by
  cases expressions with
  | nil => exact .value none
  | cons first rest =>
    have step := first.numbers_register builder
    exact step.combine (Expr.numbers_registerAll rest _) .nothing

theorem Node.numbers_registerAll (nodes : List Node) (builder : SymbolBuilder) :
    builder.Numbers ((Node.registerAll nodes).run builder).2 (Node.planAll nodes)
      (Node.planAll ((Node.registerAll nodes).run builder).1) := by
  cases nodes with
  | nil => exact .value none
  | cons first rest =>
    have step := first.numbers_register builder
    have others := Node.numbers_registerAll rest (first.register.run builder).2
    simp only [Node.registerAll, run_bind, run_pure, Node.planAll, isEmpty_registerAll]
    exact step.combine others _

end

theorem Registration.isEmpty_files (files : List (List Node)) (builder : SymbolBuilder) :
    ((files.mapM Registration.file).run builder).1.isEmpty = files.isEmpty := by
  cases files with
  | nil => rfl
  | cons first rest =>
    simp only [List.mapM_cons, run_bind, run_pure]
    rfl

theorem Registration.numbers_files (files : List (List Node)) (builder : SymbolBuilder) :
    builder.Numbers ((files.mapM Registration.file).run builder).2
      (.sequence (files.map Node.planAll))
      (.sequence (((files.mapM Registration.file).run builder).1.map Node.planAll)) := by
  induction files generalizing builder with
  | nil => exact .value none
  | cons first rest ih =>
    -- marks of usage make no difference to a plan
    have step := Node.numbers_registerAll (first.map (Node.markUsage false false)) builder
    rw [Node.planAll_markUsage] at step
    have others := ih ((Registration.file first).run builder).2
    simp only [List.mapM_cons, run_bind, run_pure, List.map_cons, Plan.sequence, List.isEmpty_map,
      isEmpty_files]
    exact step.combine others _

namespace Registered

variable (files : List (List Node))

/-- The plans of a unit are numbered from the first symbol behind the global scope on. -/
theorem plans_ofFiles : (ofFiles files).plans = Plan.numberAll 1 (files.map Node.planAll) := by
  have numbered := (Registration.numbers_files files .start).plan_eq
  rw [Plan.number_sequence] at numbered
  exact Plan.sequence_injective numbered

/-- What is written down in the plans of a unit is recorded in its table, and nothing else. -/
theorem types_ofFiles :
    (ofFiles files).table.type? = Types.record (fun _ => none) ((ofFiles files).plans.flatMap Plan.entries) := by
  have recorded := (Registration.numbers_files files .start).types_eq
  rw [Plan.entries_sequence] at recorded
  refine recorded.trans (congrArg (Types.record · _) (funext fun ⟨index⟩ => ?_))
  cases index <;> rfl

end Registered

end Cadence
