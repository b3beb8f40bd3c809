import Cadence.Proofs.Plan.Tree
import Cadence.Proofs.Resolution.Noting

/-!
# A walk over a tree is a run of its plan

The tree that comes out of a walk has the plan of the one that goes in, with all names bound. The
walk records the types that a run of this plan does, and it finds out the same about every
expression.
-/
namespace Cadence

open Resolving
open Source (Span)

/-- What a walk over a part of a tree comes to, told by the plan of the part and by what is made of it:
its plan, its expressions and its type. -/
structure Walk.Records (walk after : Walk) (table : SymbolTable) (around : Environment)
    (before now : Plan) (expressions : List Expr) (type : Option Ty) : Prop where
  plan_eq : now = before.bind around
  notes : walk.Notes after (now.run (Types.layout table.lookupGlobal?) walk.types).types
    (now.run (Types.layout table.lookupGlobal?) walk.types).deferred
    (now.errors table (Types.layout table.lookupGlobal?) around walk.types)
  type_eq : type = (now.run (Types.layout table.lookupGlobal?) walk.types).type
  findings_eq : expressions.map Expr.finding =
    (now.run (Types.layout table.lookupGlobal?) walk.types).findings

/-- The type that a block has if the node is its last one. -/
def Node.type? : Node → Option Ty
  | .expression inner => inner.type
  | .procedure _ _ _ | .struct _ _ | .binding _ _ _ | .load _ _ | .assignment _ _ _ _ => none

theorem Node.sequenceType_cons (first : Node) (rest : List Node) :
    Node.sequenceType (first :: rest) =
      (if rest.isEmpty then Rule.first else .second).type first.type? (Node.sequenceType rest) := by
  cases rest with
  | nil => cases first <;> rfl
  | cons second others => simp [sequenceType, Rule.type, List.getLast?_cons_cons]

namespace Walk.Records

variable {walk middle after : Walk} {table : SymbolTable} {around : Environment}
  {before now before' now' : Plan} {found found' : List Expr} {type type' : Option Ty}

theorem nothing (walk : Walk) (table : SymbolTable) (around : Environment) (type : Option Ty) :
    walk.Records walk table around (.value type) (.value type) [] type :=
  ⟨rfl, .refl _, rfl, rfl⟩

theorem stated {written : Ty}
    (reports : walk.Reports after (nameErrors table (written.sightings around))) :
    walk.Records after table around (.stated written) (.stated (written.bind around)) []
      (some (written.bind around)) := by
  rw [← Ty.errors_bind around] at reports
  exact ⟨rfl, reports.notes, rfl, rfl⟩

/-- Two parts that are walked over one after the other. -/
theorem combine (rule : Rule) (records : walk.Records middle table around before now found type)
    (further : middle.Records after table (around.declare before.declarations) before' now' found' type') :
    walk.Records after table around (.combine rule before before') (.combine rule now now')
      (found ++ found') (rule.type type type') := by
  obtain ⟨rfl, notes, rfl, findings⟩ := records
  obtain ⟨rfl, notes', rfl, findings'⟩ := further
  rw [notes.types] at notes' findings' ⊢
  refine ⟨rfl, ?_, rfl, ?_⟩
  · have both := notes.trans notes'
    rw [← Outcome.deferred_combine rule] at both
    rw [Plan.errors, Plan.declarations_bind]
    exact both
  · rw [List.map_append, findings, findings']
    rfl

/-- A part that is all there is about an expression. -/
theorem alone (rule : Rule) (records : walk.Records after table around before now found type) :
    walk.Records after table around (.combine rule before (.value none))
      (.combine rule now (.value none)) found (rule.type type none) := by
  have whole := records.combine rule (.nothing after table (around.declare before.declarations) none)
  rwa [List.append_nil] at whole

/-- An expression ends in which nothing is looked up but in its parts. -/
theorem expression {form : Form} {info : ExprInfo} (other : form.usage = .other)
    (records : walk.Records after table around before now found type) :
    walk.Records after table around (.expression info.span before) (.expression info.span now)
      (found ++ [.mk { info with type } form]) type := by
  obtain ⟨rfl, notes, rfl, findings⟩ := records
  refine ⟨rfl, ?_, rfl, ?_⟩
  · rw [← Outcome.deferred_finding _ info.span] at notes
    exact notes
  · rw [List.map_append, findings, List.map_singleton, Expr.finding]
    simp only [Expr.form, other]
    rfl

/-- A field is asked of a target. -/
theorem access {target : Expr} {info : ExprInfo} {field : Identifier}
    (records : walk.Records middle table around before target.plan found target.type)
    (notes : middle.Notes after middle.types 0 (target.type.elim [] fun type =>
      (middle.types.layout table.lookupGlobal? type).errors type target.span field)) :
    let type := (target.type.elim .unknown (middle.types.layout table.lookupGlobal?)).fieldType? field
    let whole := Expr.mk { info with type } (.field target field)
    walk.Records after table around (.field info.span before field) whole.plan
      (found ++ [whole]) whole.type := by
  obtain ⟨plan, known, typed, findings⟩ := records
  have both := known.trans notes
  rw [Nat.add_zero, ← Outcome.deferred_access _ (Types.layout table.lookupGlobal?) info.span field,
    known.types, typed, ← target.span_plan] at both
  refine ⟨by rw [Expr.plan, Form.plan, plan]; rfl, both, ?_, ?_⟩
  · rw [known.types, typed]
    rfl
  · rw [List.map_append, findings, known.types, typed]
    simp only [List.map_singleton, Expr.finding, Expr.form, Form.usage, typed]
    rfl

/-- A procedure that is defined elsewhere is recorded with its names bound. -/
theorem external {head : ProcedureHead}
    (notes : walk.Notes after
      (walk.types.record (head.map id (Ty.bind (Plan.insideExternal around head))).entries) 0
      (nameErrors table (head.sightings (Plan.insideExternal around head)))) :
    walk.Records after table around (.external head)
      (.external (head.map id (Ty.bind (Plan.insideExternal around head)))) [] none := by
  refine ⟨rfl, ?_, rfl, rfl⟩
  rw [Plan.errors, Plan.insideExternal_map, ProcedureHead.errors_bind]
  exact notes

/-- A struct is recorded behind its fields. -/
theorem struct {declared : Struct}
    (notes : walk.Notes after
      (walk.types.record
        (Member.entries (declared.map id (Ty.bind (Plan.insideStruct around declared))).fields ++
          (declared.map id (Ty.bind (Plan.insideStruct around declared))).entries)) 0
      (nameErrors table (Member.sightings (Plan.insideStruct around declared) declared.fields))) :
    walk.Records after table around (.struct declared)
      (.struct (declared.map id (Ty.bind (Plan.insideStruct around declared)))) [] none := by
  refine ⟨rfl, ?_, rfl, rfl⟩
  rw [Plan.errors, Plan.insideStruct_map, Struct.map, Member.errors_bind]
  exact notes

/-- The body of a procedure is walked over behind its head. -/
theorem procedure {last : Walk} {head : ProcedureHead}
    (heads : walk.Notes middle (walk.types.record
      ((head.map id (Ty.bind (Plan.insideProcedure around head before))).entries ++
        Member.entries (head.map id (Ty.bind (Plan.insideProcedure around head before))).parameters)) 0
      (nameErrors table (head.sightings (Plan.insideProcedure around head before))))
    (records : middle.Records last table ((Plan.insideProcedure around head before).enter
      (Member.declarations head.parameters)) before now found type)
    (quiet : last.Notes after last.types 0 []) :
    walk.Records after table around (.procedure head before)
      (.procedure (head.map id (Ty.bind (Plan.insideProcedure around head before))) now) found none := by
  obtain ⟨rfl, notes, rfl, findings⟩ := records
  have whole := (heads.trans notes).append quiet
  rw [notes.types, heads.types, Nat.zero_add,
    ← ProcedureHead.errors_bind (Plan.insideProcedure around head before)] at whole
  rw [heads.types] at findings
  refine ⟨rfl, ?_, rfl, findings⟩
  rw [Plan.errors, Plan.insideProcedure_bind, head.declarations_map_id]
  exact whole

/-- A binding is recorded behind its initial value. -/
theorem binding {head : BindingHead} {declared : SymbolIndex} (symbol : head.symbol = some declared)
    (reports : walk.Reports middle (nameErrors table (annotationSightings around head.type)))
    {last : Walk}
    (records : middle.Records last table around before now found type)
    (recorded : last.Notes after (Function.update last.types declared
      (((head.type.map (Spanned.map (Ty.bind around))).map Spanned.value).or type)) 0 []) :
    walk.Records after table around (.binding head before)
      (.binding (head.map id (Ty.bind around)) now) found none := by
  obtain ⟨rfl, notes, rfl, findings⟩ := records
  have whole := (reports.notes.trans notes).append recorded
  rw [notes.types, reports.notes.types, Nat.zero_add, ← Ty.errors_bindOption around] at whole
  rw [reports.notes.types] at findings
  refine ⟨rfl, ?_, rfl, findings⟩
  simp only [Plan.run, Outcome.declaring, BindingHead.entries, BindingHead.map, symbol, Option.map_some, id,
    entryOf]
  exact whole

end Walk.Records

namespace Resolving

section Steps

variable {α β : Type} {walk after : Walk} {table : SymbolTable} {place : Place} {around : Environment}

/-- Two parts, the first one of which is walked over on track. -/
theorem Ends.part {first second : List Declaration} {types further : Prop}
    {here there : List Sighting} {step : Resolving α} {next : α → Resolving β}
    {final : β → Walk → Prop} {holds : α → Walk → Prop}
    {first' : α → List Declaration} {types' : α → Prop} {here' : α → List Sighting}
    (leaves : walk.Awaits table place first types here → step.Succeeds walk fun result middle =>
      middle.Leaves table place first (first' result) (types' result) (here' result))
    (left : walk.Awaits table place first types here → step.Ends walk holds)
    (awaits : walk.Awaits table place (first ++ second) (types ∧ further) (here ++ there))
    (right : ∀ result middle, middle.Awaits table (place.declare first) second further there →
      holds result middle → (next result).Ends middle final) :
    (step >>= next).Ends walk final :=
  ((leaves awaits.left).ends.and (left awaits.left)).bind fun result middle ⟨leaves, known⟩ =>
    right result middle (leaves.awaits awaits) known

/-- The head of a procedure is recorded with its names bound. -/
theorem procedureHead_ends {head : ProcedureHead} {next : Declaration}
    (stands : walk.StandsAt table place) (fits : place.Fits [next])
    (heading_eq : next.heading = head.heading) :
    (procedureHead head).Ends walk fun result after =>
      let inside := place.environment.declare [next]
      result.2 = head.map id (Ty.bind inside) ∧
        walk.Notes after (walk.types.record result.2.entries) 0
          (nameErrors table (head.sightings inside)) := by
  obtain ⟨index, own, meets⟩ := meet_next stands fits
  have sees := stands.inside.sees_next fits
  rw [Declaration.symbol?, heading_eq] at meets
  refine (meets.ends.and (meet_ends _)).bind ?_
  rintro owner met ⟨⟨rfl, tracks⟩, symbol, notes⟩
  refine (memberTypes_ends sees head.parameters tracks).bind ?_
  rintro _ middle ⟨rfl, parameters⟩
  refine (annotatedOption_ends sees head.result (parameters.tracks tracks)).bind ?_
  rintro _ last ⟨rfl, result⟩
  refine (setType_ends owner _).bind fun _ after recorded => .pure ?_
  have same : ({ head with
      parameters := head.parameters.map (Member.map id (Ty.bind (place.environment.declare [next])))
      result := head.result.map (Spanned.map (Ty.bind (place.environment.declare [next])))
      } : ProcedureHead) = head.map id (Ty.bind (place.environment.declare [next])) := by
    simp [ProcedureHead.map]
  rw [same] at recorded
  refine ⟨same, ?_⟩
  -- nothing else was recorded on the way
  have reported := notes.prepend (parameters.trans result).notes
  have entries : (head.map id (Ty.bind (place.environment.declare [next]))).entries =
      [(owner, some (head.map id (Ty.bind (place.environment.declare [next]))).type)] := by
    simp [ProcedureHead.entries, ProcedureHead.map, show head.symbol = some owner from symbol, entryOf]
  rw [reported.types, notes.types] at recorded
  simp only [same, entries, ProcedureHead.sightings, nameErrors_append]
  exact reported.append recorded

/-- What lies in a scope of its own is walked over there, and nothing is noted on the way in and
out. -/
theorem body_ends {heading : Heading} {content rest : List Declaration} (inside : place.IsIn table)
    (fits : place.Fits (.withBody heading content :: rest)) {index : SymbolIndex}
    (own : heading.IsAt table place.innermost.scope index)
    (tracks : walk.Tracks table (place.innermost.cursor.next :: place.outerCursors))
    {body : Resolving α} {holds : Walk → α → Walk → Prop}
    (follows : ∀ start : Walk,
      start.StandsAt table ((place.declare [.withBody heading content]).enter index.next content) →
      body.Ends start (holds start)) :
    (withinBody index body).Ends walk fun result after => ∃ start last,
      walk.Notes start walk.types 0 [] ∧ holds start result last ∧
        last.Notes after last.types 0 [] := by
  obtain ⟨hasBody, declared, entered⟩ := inside.body_next fits own
  have cursors : (place.declare [.withBody heading content]).cursors = _ :=
    place.cursors_declare_withBody own.1
  apply Ends.bind_get
  rw [tracks.shape.bodyScope?, inside.bodyScope?_next fits own hasBody]
  refine ((meet_succeeds tracks rfl (inside.child_body fits own.1)).ends.and (meet_ends _)).bind ?_
  rintro found met ⟨⟨rfl, shape, types, same⟩, _, notes⟩
  -- entering a scope only puts a cursor on the stack
  have entering : met.Notes { met with inner := ⟨index.next, 0⟩ :: met.inner } met.types 0 [] :=
    .of_eq rfl rfl rfl
  rw [notes.types] at entering
  refine Ends.bind_modify ((follows { met with inner := ⟨index.next, 0⟩ :: met.inner }
    ⟨entered, shape, types, ?_⟩).bind fun result last known => ?_)
  · rw [Place.cursors_enter, cursors, ← same]
    rfl
  · -- a stack without a scope to leave would be a fault, of which nothing is claimed here
    apply Ends.bind_get
    split
    next current outer _ =>
      split
      next =>
        refine (Ends.set _).bind ?_
        rintro _ _ rfl
        exact .pure ⟨_, last, notes.append entering, known, .of_eq rfl rfl rfl⟩
      next => exact .fault _
    next => exact .fault _

/-- The parameters are recorded in front of the body. -/
theorem content_ends {parameters : List Member} {body : Expr} {scope : SymbolIndex}
    (resolves : ∀ {walk : Walk} {place : Place},
      walk.Awaits table place body.declarations (body.AllTypes table.BindsIn)
        (body.sightings place.environment) →
      body.resolve.Ends walk fun result after =>
        walk.Records after table place.environment body.plan result.plan result.expressions result.type)
    (stands : walk.StandsAt table
      (place.enter scope (Member.declarations parameters ++ body.declarations)))
    (binds : ∀ parameter ∈ parameters, table.BindsIn parameter.type.value)
    (types : body.AllTypes table.BindsIn)
    (isOpen : ∀ sighting ∈ body.sightings (place.environment.enter (Member.declarations parameters)),
      sighting.IsOpen) :
    Ends (do parameters.forM meetMember; return some (← body.resolve)) walk fun result after =>
      ∃ body' met, result = some body' ∧
        walk.Notes met (walk.types.record (Member.entries parameters)) 0 [] ∧
          met.Records after table (place.environment.enter (Member.declarations parameters)) body.plan
            body'.plan body'.expressions body'.type := by
  have fits : (place.enter scope (Member.declarations parameters ++ body.declarations)).Fits
      (Member.declarations parameters ++ body.declarations) := List.prefix_refl _
  refine ((meetMembers_succeeds stands fits binds).ends.and (meetMembers_ends parameters)).bind ?_
  rintro _ met ⟨stands, notes⟩
  refine (resolves ⟨stands, fits.of_append.2, types, isOpen⟩).bind fun body' after records => ?_
  exact .pure ⟨body', met, rfl, notes, records⟩

end Steps

theorem Expr.isSome_resolveOption {walk : Walk} (expression : Option Expr) :
    (Expr.resolveOption expression).Ends walk fun result _ => result.isSome = expression.isSome := by
  cases expression with
  | none => exact .pure rfl
  | some inner => exact (Ends.any _ _).bind fun _ _ _ => .pure rfl

theorem Node.isEmpty_resolveAll {walk : Walk} (nodes : List Node) :
    (Node.resolveAll nodes).Ends walk fun result _ => result.isEmpty = nodes.isEmpty := by
  cases nodes with
  | nil => exact .pure rfl
  | cons first rest =>
    refine (Ends.any _ _).bind fun _ _ _ => ?_
    exact (Ends.any _ _).bind fun _ _ _ => .pure rfl

/-- A procedure that is defined here is recorded with its parameters in front of its body. -/
theorem Node.procedure_records {span : Span} {head : ProcedureHead} {body : Expr} {walk : Walk}
    {table : SymbolTable} {place : Place}
    (resolves : ∀ {walk : Walk} {place : Place},
      walk.Awaits table place body.declarations (body.AllTypes table.BindsIn)
        (body.sightings place.environment) →
      body.resolve.Ends walk fun result after =>
        walk.Records after table place.environment body.plan result.plan result.expressions result.type)
    (awaits : walk.Awaits table place (Node.procedure span head (some body)).declarations
      ((Node.procedure span head (some body)).AllTypes table.BindsIn)
      ((Node.procedure span head (some body)).sightings place.environment)) :
    (Node.procedure span head (some body)).resolve.Ends walk fun result after =>
      walk.Records after table place.environment (Node.procedure span head (some body)).plan
        result.plan result.expressions result.type? := by
  have opens := List.forall_mem_append.mp awaits.isOpen
  have heads := procedureHead_succeeds awaits.stands awaits.fits rfl awaits.types.1 opens.1
  refine (heads.ends.and (procedureHead_ends awaits.stands awaits.fits rfl)).bind ?_
  rintro ⟨owner, _⟩ middle ⟨⟨tracks, own, _, declared, types, _⟩, rfl, notes⟩
  -- where the body starts, all of the head has been recorded
  have content (start : Walk)
      (stands : start.StandsAt table ((place.declare [.withBody head.heading
        (Member.declarations head.parameters ++ body.declarations)]).enter owner.next
          (Member.declarations head.parameters ++ body.declarations))) := by
    have isOpen := opens.2
    rw [← Place.environment_declare, ← declared] at isOpen
    rw [← declared] at stands
    exact content_ends resolves stands types.1 awaits.types.2 isOpen
  refine (body_ends awaits.stands.inside awaits.fits own tracks content).bind ?_
  rintro _ after ⟨start, last, entering, ⟨body', met, rfl, parameters, records⟩, leaving⟩
  rw [Place.environment_declare, declared] at records
  rw [← body.declarations_plan] at notes parameters records ⊢
  -- the parameters are recorded on top of what the head has left
  rw [entering.types, notes.types, ← Types.record_append] at parameters
  exact .pure (.procedure ((notes.append entering).append parameters) records leaving)

/-- A struct is recorded when its fields have been met. -/
theorem Node.struct_records {span : Span} {declared : Struct} {walk : Walk} {table : SymbolTable}
    {place : Place}
    (awaits : walk.Awaits table place (Node.struct span declared).declarations
      ((Node.struct span declared).AllTypes table.BindsIn)
      ((Node.struct span declared).sightings place.environment)) :
    (Node.struct span declared).resolve.Ends walk fun result after =>
      walk.Records after table place.environment (Node.struct span declared).plan result.plan
        result.expressions result.type? := by
  obtain ⟨index, own, meets⟩ := meet_next awaits.stands awaits.fits
  have sees := awaits.stands.inside.sees_next awaits.fits
  refine (meets.ends.and (meet_ends _)).bind ?_
  rintro owner met ⟨⟨rfl, tracks⟩, symbol, notes⟩
  refine (memberTypes_ends sees declared.fields tracks).bind ?_
  rintro _ middle ⟨rfl, reports⟩
  refine (body_ends awaits.stands.inside awaits.fits own (reports.tracks tracks)
    fun start _ => meetMembers_ends _).bind ?_
  rintro _ left ⟨start, last, entering, fields, leaving⟩
  refine (setType_ends owner _).bind fun _ after recorded => .pure ?_
  -- the struct that is stored has its names bound where it sees itself
  have same : ({ declared with
      fields := declared.fields.map (Member.map id (Ty.bind (place.environment.declare
        [.withBody declared.heading (Member.declarations declared.fields)]))) } : Struct) =
      declared.map id (Ty.bind (Plan.insideStruct place.environment declared)) := by
    simp [Struct.map, Plan.insideStruct]
  rw [same] at recorded ⊢
  rw [entering.types, reports.notes.types, notes.types] at fields
  rw [leaving.types, fields.types] at recorded
  -- what was noted at each step, in the order of the walk
  have whole := (((notes.prepend reports.notes).append entering).append fields).append
    (leaving.append recorded)
  refine .struct ?_
  have entries : (declared.map id (Ty.bind (Plan.insideStruct place.environment declared))).entries =
      [(owner, some (declared.map id (Ty.bind (Plan.insideStruct place.environment declared))).type)] := by
    simp [Struct.entries, Struct.map, show declared.symbol = some owner from symbol, entryOf]
  simp only [entries, Types.record_append]
  exact whole

mutual

theorem Node.resolve_records {node : Node} {walk : Walk} {table : SymbolTable} {place : Place}
    {around : Environment} (same : place.environment = around)
    (awaits : walk.Awaits table place node.declarations (node.AllTypes table.BindsIn)
      (node.sightings around)) :
    node.resolve.Ends walk fun result after =>
      walk.Records after table around node.plan result.plan result.expressions result.type? := by
  subst same
  cases node with
  | procedure span head body =>
    cases body with
    | none =>
      refine (procedureHead_ends awaits.stands awaits.fits rfl).bind ?_
      rintro ⟨owner, _⟩ after ⟨rfl, notes⟩
      exact .pure (.external notes)
    | some body => exact Node.procedure_records (Expr.resolve_records rfl) awaits
  | struct span declared => exact Node.struct_records awaits
  | binding span head initializer =>
    have opens := List.forall_mem_append.mp awaits.isOpen
    have isOpen := forall_annotationSightings.mp opens.1
    have resolvable := fun annotated present =>
      Ty.IsResolvable.mk (awaits.types.1 annotated present) (isOpen annotated present)
    refine (annotatedOption_ends awaits.stands.sees head.type awaits.stands.tracks).bind ?_
    rintro _ middle ⟨rfl, reports⟩
    have whole : middle.Awaits table place (Expr.declarationsOption initializer)
      (Expr.AllTypesOption table.BindsIn initializer)
      (Expr.sightingsOption place.environment initializer) :=
        ⟨⟨awaits.stands.inside, reports.tracks awaits.stands.tracks⟩, awaits.fits.of_append.1,
          awaits.types.2, opens.2⟩
    refine (Expr.resolveOption_records rfl whole).bind ?_
    intro initializer' last records
    refine (meet_ends head.symbol).bind ?_
    -- meeting the binding notes nothing; its type is recorded behind the initial value
    rintro declared met ⟨symbol, quiet⟩
    refine (setType_ends declared _).bind fun _ after recorded => .pure ?_
    have same : ({ head with type := head.type.map (Spanned.map (Ty.bind place.environment)) } :
        BindingHead) = head.map id (Ty.bind place.environment) := by
      simp [BindingHead.map]
    rw [same]
    refine .binding symbol reports records ?_
    rw [quiet.types] at recorded
    have whole := quiet.trans recorded
    -- the type that is written down goes before that of the initial value
    cases written : head.type with
    | none => simpa [written] using whole
    | some annotated => simpa [written] using whole
  | load span path => exact .pure (.nothing walk table place.environment none)
  | expression inner =>
    exact (Expr.resolve_records rfl awaits).bind fun inner after records => .pure records
  | assignment span target operator value =>
    refine .part Expr.resolve_leaves (Expr.resolve_records rfl) awaits
      fun target' middle awaits records => ?_
    refine (Expr.resolve_records (Place.environment_declare _ _) awaits).bind
      fun value' after further => .pure ?_
    rw [← target.declarations_plan] at further
    exact records.combine .nothing further

theorem Expr.resolve_records {expression : Expr} {walk : Walk} {table : SymbolTable} {place : Place}
    {around : Environment} (same : place.environment = around)
    (awaits : walk.Awaits table place expression.declarations (expression.AllTypes table.BindsIn)
      (expression.sightings around)) :
    expression.resolve.Ends walk fun result after =>
      walk.Records after table around expression.plan result.plan result.expressions result.type := by
  obtain ⟨info, form⟩ := expression
  have whole : walk.Awaits table place form.declarations (form.AllTypes table.BindsIn)
      (form.sightings around) := { awaits with types := awaits.types.2 }
  exact (Form.resolve_records same whole info).bind fun result after records => .pure records

theorem Form.resolve_records {form : Form} {walk : Walk} {table : SymbolTable} {place : Place}
    {around : Environment} (same : place.environment = around)
    (awaits : walk.Awaits table place form.declarations (form.AllTypes table.BindsIn)
      (form.sightings around)) (info : ExprInfo) :
    (form.resolve info.type).Ends walk fun result after =>
      let whole := Expr.mk { info with type := result.2 } result.1
      walk.Records after table around (form.plan info) whole.plan whole.expressions whole.type := by
  subst same
  -- parts in sequence are put together by `combine`, with the rule by which the form has its type
  cases form with
  | reference binder symbol =>
    refine (reference_ends awaits.stands.sees awaits.stands.tracks binder).bind ?_
    rintro found middle ⟨denotes, reports⟩
    -- the symbol that the walk finds is the one that the plan binds the name to
    obtain rfl := symbolOf?_of_matches denotes
    refine (referenceType_ends _ info.span).bind ?_
    rintro _ after ⟨rfl, notes⟩
    rw [reports.notes.types] at notes ⊢
    refine .pure ⟨rfl, ?_, rfl, rfl⟩
    have both := reports.notes.trans notes
    rwa [List.append_nil, Nat.zero_add] at both
  | field target name =>
    refine ((Expr.resolve_leaves awaits).ends.and (Expr.resolve_records rfl awaits)).bind ?_
    rintro target' middle ⟨leaves, records⟩
    refine (fieldType_ends leaves.stands.tracks.shape target' name).bind ?_
    rintro _ after ⟨rfl, notes⟩
    exact .pure (records.access notes)
  | call callee arguments =>
    refine .part Expr.resolve_leaves (Expr.resolve_records rfl) awaits
      fun callee' middle awaits records => ?_
    refine (Expr.resolveAll_records (Place.environment_declare _ _) awaits).bind
      fun arguments' after further => .pure ?_
    rw [← callee.declarations_plan] at further
    exact (records.combine .result further).expression rfl
  | binary left operator right =>
    refine .part Expr.resolve_leaves (Expr.resolve_records rfl) awaits
      fun left' middle awaits records => ?_
    refine (Expr.resolve_records (Place.environment_declare _ _) awaits).bind
      fun right' after further => .pure ?_
    rw [← left.declarations_plan] at further
    exact (records.combine (.binary operator.value) further).expression rfl
  | unary operator operand =>
    exact (Expr.resolve_records rfl awaits).bind fun operand' after records =>
      .pure ((records.alone (.unary operator.value)).expression rfl)
  | cast operand type =>
    have whole : walk.Awaits table place operand.declarations (operand.AllTypes table.BindsIn)
      (operand.sightings place.environment) :=
        { awaits with
          types := awaits.types.1
          isOpen := (List.forall_mem_append.mp awaits.isOpen).1 }
    refine ((Expr.resolve_leaves whole).ends.and (Expr.resolve_records rfl whole)).bind ?_
    rintro operand' middle ⟨leaves, records⟩
    -- the type stands behind the operand, and sees what is declared in it
    have sees := leaves.stands.sees
    rw [Place.environment_declare] at sees
    refine (annotated_ends sees type leaves.stands.tracks).bind ?_
    rintro _ after ⟨rfl, reports⟩
    rw [← operand.declarations_plan] at reports ⊢
    have whole := records.combine .second (.stated reports)
    rw [List.append_nil] at whole
    exact .pure (whole.expression rfl)
  | block nodes =>
    exact (Node.resolveAll_records rfl awaits).bind fun nodes' after records =>
      .pure (records.expression rfl)
  | conditional isNegated condition consequent alternative =>
    refine .part Expr.resolve_leaves (Expr.resolve_records rfl) awaits
      fun condition' middle awaits records => ?_
    rw [← Place.environment_declare] at awaits
    refine .part Expr.resolve_leaves (Expr.resolve_records rfl) awaits
      fun consequent' last awaits further => ?_
    have alternatives := Expr.resolveOption_records (by simp only [Place.environment_declare]) awaits
    refine (alternatives.and (Expr.isSome_resolveOption alternative)).bind ?_
    rintro alternative' after ⟨behind, present⟩
    simp only [Place.environment_declare] at further behind
    rw [← condition.declarations_plan] at further behind
    rw [← consequent.declarations_plan] at behind
    have whole := records.combine .second
      (further.combine (if alternative.isSome then .first else .nothing) behind)
    -- there is a type if there is an alternative
    have type : (if alternative.isSome then Rule.first else .nothing).type consequent'.type
        (alternative'.bind Expr.type) = alternative'.bind fun _ => consequent'.type := by
      rw [← present]
      cases alternative' <;> rfl
    rw [type, ← present] at whole
    rw [Form.plan, ← present]
    exact .pure (whole.expression rfl)
  | loop isNegated condition body alternative =>
    refine .part Expr.resolve_leaves (Expr.resolve_records rfl) awaits
      fun condition' middle awaits records => ?_
    rw [← Place.environment_declare] at awaits
    refine .part Expr.resolve_leaves (Expr.resolve_records rfl) awaits
      fun body' last awaits further => ?_
    refine (Expr.resolveOption_records (by simp only [Place.environment_declare]) awaits).bind
      fun alternative' after behind => .pure ?_
    simp only [Place.environment_declare] at further behind
    rw [← condition.declarations_plan] at further behind
    rw [← body.declarations_plan] at behind
    exact (records.combine .nothing (further.combine .nothing behind)).expression rfl
  | new type =>
    refine (annotated_ends awaits.stands.sees type awaits.stands.tracks).bind ?_
    rintro _ after ⟨rfl, reports⟩
    exact .pure (((Walk.Records.stated reports).alone (.unary .caret)).expression rfl)
  | delete operand =>
    exact (Expr.resolve_records rfl awaits).bind fun operand' after records =>
      .pure ((records.alone .nothing).expression rfl)
  | defer node =>
    exact (Node.resolve_records rfl awaits).bind fun node' after records =>
      .pure ((records.alone .nothing).expression rfl)
  | bool | integer | real | text | character | uninitialized =>
    exact .pure ((Walk.Records.nothing walk table place.environment info.type).expression rfl)

theorem Expr.resolveOption_records {expression : Option Expr} {walk : Walk} {table : SymbolTable}
    {place : Place} {around : Environment} (same : place.environment = around)
    (awaits : walk.Awaits table place (Expr.declarationsOption expression)
      (Expr.AllTypesOption table.BindsIn expression) (Expr.sightingsOption around expression)) :
    (Expr.resolveOption expression).Ends walk fun result after =>
      walk.Records after table around (Expr.planOption expression) (Expr.planOption result)
        (Expr.expressionsOption result) (result.bind Expr.type) := by
  cases expression with
  | none => exact .pure (.nothing walk table around none)
  | some inner =>
    exact (Expr.resolve_records same awaits).bind fun inner after records => .pure records

theorem Expr.resolveAll_records {expressions : List Expr} {walk : Walk} {table : SymbolTable}
    {place : Place} {around : Environment} (same : place.environment = around)
    (awaits : walk.Awaits table place (Expr.declarationsAll expressions)
      (Expr.AllTypesAll table.BindsIn expressions) (Expr.sightingsAll around expressions)) :
    (Expr.resolveAll expressions).Ends walk fun result after =>
      walk.Records after table around (Expr.planAll expressions) (Expr.planAll result)
        (Expr.expressionsAll result) none := by
  subst same
  cases expressions with
  | nil => exact .pure (.nothing walk table place.environment none)
  | cons first rest =>
    refine .part Expr.resolve_leaves (Expr.resolve_records rfl) awaits
      fun first' middle awaits records => ?_
    refine (Expr.resolveAll_records (Place.environment_declare _ _) awaits).bind
      fun rest' after further => .pure ?_
    rw [← first.declarations_plan] at further
    exact records.combine .nothing further

theorem Node.resolveAll_records {nodes : List Node} {walk : Walk} {table : SymbolTable} {place : Place}
    {around : Environment} (same : place.environment = around)
    (awaits : walk.Awaits table place (Node.declarationsAll nodes)
      (Node.AllTypesAll table.BindsIn nodes) (Node.sightingsAll around nodes)) :
    (Node.resolveAll nodes).Ends walk fun result after =>
      walk.Records after table around (Node.planAll nodes) (Node.planAll result)
        (Node.expressionsAll result) (Node.sequenceType result) := by
  subst same
  cases nodes with
  | nil => exact .pure (.nothing walk table place.environment none)
  | cons first rest =>
    refine .part Node.resolve_leaves (Node.resolve_records rfl) awaits
      fun first' middle awaits records => ?_
    refine ((Node.resolveAll_records (Place.environment_declare _ _) awaits).and
      (Node.isEmpty_resolveAll rest)).bind ?_
    rintro rest' after ⟨further, empty⟩
    rw [← first.declarations_plan] at further
    have whole := records.combine (if rest.isEmpty then .first else .second) further
    refine .pure ?_
    rw [Node.sequenceType_cons, Node.planAll, Node.planAll, empty]
    exact whole

end

end Resolving

end Cadence
