import Cadence.Proofs.Plan.Errors
import Cadence.Proofs.Resolution.Lockstep

/-!
# What the steps of a walk note down

A walk goes on with what it knows about the types of symbols, with the references that it defers and
with the errors that it reports. Each step adds to these what a run of the plan does. Nothing is said
here about whether a step succeeds.
-/
namespace Cadence

/-- What a walk knows about the types of symbols. -/
def Walk.types (walk : Walk) : Types := walk.table.type?

/-- What is noted down between two points of a walk. -/
structure Walk.Notes (walk after : Walk) (types : Types) (deferred : Nat)
    (errors : List ResolutionError) : Prop where
  types : after.types = types
  deferred : after.deferred = walk.deferred + deferred
  errors : after.errors = walk.errors ++ errors

/-- Nothing but some errors is noted down between two points of a walk. -/
def Walk.Reports (walk after : Walk) (errors : List ResolutionError) : Prop :=
  after = { walk with errors := walk.errors ++ errors }

section Notes

variable {walk middle after : Walk} {table : SymbolTable} {cursors : List Cursor}
  {types types' : Types} {deferred deferred' : Nat} {errors errors' : List ResolutionError}

/-- Nothing is noted down where nothing is recorded or reported. -/
theorem Walk.Notes.of_eq (table : after.table = walk.table) (errors : after.errors = walk.errors)
    (deferred : after.deferred = walk.deferred) : walk.Notes after walk.types 0 [] :=
  ⟨by rw [Walk.types, table]; rfl, deferred, by rw [errors, List.append_nil]⟩

theorem Walk.Notes.refl (walk : Walk) : walk.Notes walk walk.types 0 [] := .of_eq rfl rfl rfl

theorem Walk.Notes.trans (notes : walk.Notes middle types deferred errors)
    (further : middle.Notes after types' deferred' errors') :
    walk.Notes after types' (deferred + deferred') (errors ++ errors') where
  types := further.types
  deferred := by rw [further.deferred, notes.deferred, Nat.add_assoc]
  errors := by rw [further.errors, notes.errors, List.append_assoc]

/-- Where types are only recorded, nothing else is noted down. -/
theorem Walk.Notes.append (notes : walk.Notes middle types deferred errors)
    (recorded : middle.Notes after types' 0 []) : walk.Notes after types' deferred errors := by
  have whole := notes.trans recorded
  rwa [List.append_nil] at whole

theorem Walk.Notes.prepend (recorded : walk.Notes middle types 0 [])
    (notes : middle.Notes after types' deferred errors) :
    walk.Notes after types' deferred errors := by
  have whole := recorded.trans notes
  rwa [List.nil_append, Nat.zero_add] at whole

theorem Walk.Reports.refl (walk : Walk) : walk.Reports walk [] := by
  rw [Reports, List.append_nil]

theorem Walk.Reports.trans (reports : walk.Reports middle errors)
    (further : middle.Reports after errors') : walk.Reports after (errors ++ errors') := by
  subst reports further
  simp only [Reports, List.append_assoc]

theorem Walk.Reports.notes (reports : walk.Reports after errors) :
    walk.Notes after walk.types 0 errors := by
  subst reports
  exact ⟨rfl, rfl, rfl⟩

theorem Walk.Reports.tracks (reports : walk.Reports after errors)
    (tracks : walk.Tracks table cursors) : after.Tracks table cursors := by
  subst reports
  exact ⟨tracks.shape, tracks.types, tracks.cursors_eq⟩

end Notes

theorem SymbolTable.type?_setType {table : SymbolTable} {index : SymbolIndex}
    (present : index.value < table.size) (type : Option Ty) :
    (table.setType index type).type? = Function.update table.type? index type := by
  funext other
  by_cases own : other = index
  · subst own
    have inside : table.symbols[other.value]? = some table.symbols[other.value] :=
      Array.getElem?_eq_getElem present
    simp [type?, symbol?, setType, modify, Array.getElem?_modify, inside]
  · have apart : index.value ≠ other.value := fun same =>
      own (by cases index; cases other; exact congrArg SymbolIndex.mk same.symm)
    simp [type?, symbol?, setType, modify, Array.getElem?_modify, apart, Function.update_of_ne own]

namespace Resolving

variable {α β : Type}

/-- If a step of a walk ends without a fault, its outcome is as told. -/
def Ends (step : Resolving α) (walk : Walk) (outcome : α → Walk → Prop) : Prop :=
  ∀ result after, step.run walk = .ok (result, after) → outcome result after

/-- A step that succeeds has no other outcome than the one that it has. -/
theorem Succeeds.ends {step : Resolving α} {walk : Walk} {outcome : α → Walk → Prop}
    (succeeds : step.Succeeds walk outcome) : step.Ends walk outcome := by
  intro result after run
  obtain ⟨result', after', run', known⟩ := succeeds
  obtain ⟨rfl, rfl⟩ := Prod.mk.inj (Except.ok.inj (run'.symm.trans run))
  exact known

/-- What is known of a step that succeeds holds of its outcome as well. -/
theorem Succeeds.and {step : Resolving α} {walk : Walk} {outcome other : α → Walk → Prop}
    (succeeds : step.Succeeds walk outcome) (ends : step.Ends walk other) :
    step.Succeeds walk fun result after => outcome result after ∧ other result after := by
  obtain ⟨result, after, run, known⟩ := succeeds
  exact ⟨result, after, run, known, ends result after run⟩

namespace Ends

variable {walk : Walk} {outcome other : α → Walk → Prop} {final : β → Walk → Prop}

theorem pure {result : α} (known : outcome result walk) : Ends (pure result) walk outcome := by
  rintro _ _ ⟨⟩
  exact known

theorem fault (fault : Fault) : Ends (throw fault) walk outcome := by
  rintro _ _ ⟨⟩

theorem bind {step : Resolving α} {next : α → Resolving β} (first : Ends step walk outcome)
    (second : ∀ result middle, outcome result middle → Ends (next result) middle final) :
    Ends (step >>= next) walk final := by
  intro last after run
  rw [StateT.run_bind] at run
  cases ran : step.run walk with
  | error fault =>
    rw [ran] at run
    cases run
  | ok pair =>
    rw [ran] at run
    exact second pair.1 pair.2 (first _ _ ran) last after run

theorem mono {step : Resolving α} (ends : Ends step walk outcome)
    (implies : ∀ result after, outcome result after → other result after) : Ends step walk other :=
  fun result after run => implies result after (ends result after run)

theorem and {step : Resolving α} (left : Ends step walk outcome) (right : Ends step walk other) :
    Ends step walk fun result after => outcome result after ∧ other result after :=
  fun result after run => ⟨left result after run, right result after run⟩

theorem map {step : Resolving α} {change : α → β}
    (ends : Ends step walk fun result after => final (change result) after) :
    Ends (change <$> step) walk final := by
  rw [← bind_pure_comp]
  exact ends.bind fun result after known => .pure known

theorem discard {step : Resolving α} (ends : Ends step walk outcome) :
    Ends (discard step) walk fun _ after => ∃ result, outcome result after := by
  have unfolded : Functor.discard step = step >>= fun _ => Pure.pure PUnit.unit := rfl
  rw [unfolded]
  exact ends.bind fun result after known => .pure ⟨result, known⟩

theorem bind_get {next : Walk → Resolving β} (ends : Ends (next walk) walk final) :
    Ends (get >>= next) walk final := ends

theorem bind_modify {change : Walk → Walk} {next : PUnit → Resolving β}
    (ends : Ends (next ⟨⟩) (change walk) final) : Ends (modify change >>= next) walk final := ends

theorem modify (change : Walk → Walk) :
    Ends (modify change) walk fun _ after => after = change walk := by
  rintro _ _ ⟨⟩
  rfl

theorem set (last : Walk) : Ends (set last) walk fun _ after => after = last := by
  rintro _ _ ⟨⟩
  rfl

/-- Nothing need be known about the outcome of a step. -/
theorem any (step : Resolving α) (walk : Walk) : Ends step walk fun _ _ => True :=
  fun _ _ _ => trivial

/-- What a step in front does does not matter if the rest ends as told from everywhere. -/
theorem behind {next : α → Resolving β} (known : ∀ result middle, (next result).Ends middle final) :
    Ends (step >>= next) walk final :=
  (any step walk).bind fun result middle _ => known result middle

end Ends

variable {walk : Walk} {table : SymbolTable} {cursors : List Cursor} {around : Environment}

theorem symbol_ends (index : SymbolIndex) :
    (symbol index).Ends walk fun found after => after = walk ∧ walk.table.symbol? index = some found := by
  apply Ends.bind_get
  dsimp only
  split
  next found present => exact .pure ⟨rfl, present⟩
  next => exact .fault _

theorem setType_ends (index : SymbolIndex) (type : Option Ty) :
    (setType index type).Ends walk fun _ after =>
      walk.Notes after (Function.update walk.types index type) 0 [] := by
  refine (symbol_ends index).discard.bind ?_
  rintro _ walk ⟨found, rfl, present⟩
  have inside : index.value < walk.table.size :=
    (SymbolTable.lt_size_iff _ index).mpr (by simp [SymbolTable.shape?, present])
  refine (Ends.modify _).mono ?_
  rintro _ _ rfl
  exact ⟨SymbolTable.type?_setType inside type, rfl, (List.append_nil _).symm⟩

/-- The symbol that is met is the expected one. -/
theorem meet_ends (expected : Option SymbolIndex) :
    (meet expected).Ends walk fun found after =>
      expected = some found ∧ walk.Notes after walk.types 0 [] := by
  apply Ends.bind_get
  dsimp only
  split
  next index found =>
    split
    next same =>
      split
      next =>
        refine (Ends.set _).bind ?_
        rintro _ _ rfl
        exact .pure ⟨same, .of_eq rfl rfl rfl⟩
      next =>
        refine (Ends.set _).bind ?_
        rintro _ _ rfl
        exact .pure ⟨same, .of_eq rfl rfl rfl⟩
    next => exact .fault _
  next => exact .fault _

theorem report_ends (error : ResolutionError) :
    (report error).Ends walk fun _ after => after = { walk with errors := walk.errors ++ [error] } :=
  .modify _

theorem look_ends : look.Ends walk fun result after => result = walk ∧ after = walk := by
  apply Ends.bind_get
  split
  next => exact .pure ⟨rfl, rfl⟩
  next => exact .fault _

section Names

variable (sees : table.Sees cursors around)
include sees

/-- The names that may have been meant are those that can be referred to. -/
theorem lookalike?_eq (tracks : walk.Tracks table cursors) (name : String) :
    walk.lookalike? name = around.lookalike? name := by
  have named : walk.table.name? = table.name? := funext tracks.shape.name?
  have met : walk.met = fun cursor =>
      ((table.children cursor.scope).take cursor.position).reverse := by
    funext cursor
    rw [Walk.met, tracks.shape.children]
  rw [Walk.lookalike?, Walk.visible, tracks.cursors_eq, met, SymbolTable.globals, tracks.shape.children,
    named, ← SymbolTable.globals, sees.names_eq]
  rfl

theorem reference_ends (tracks : walk.Tracks table cursors) (name : Identifier) :
    (reference name).Ends walk fun result after =>
      table.Matches (around.denoted? name.value) result ∧
        walk.Reports after (around.referenceErrors name) := by
  have known := lookup?_matches tracks sees name.value
  refine look_ends.bind ?_
  rintro _ _ ⟨rfl, rfl⟩
  -- the walk finds a symbol exactly if the environment denotes a declaration
  split
  next index found =>
    rw [found] at known
    refine .pure ⟨known, ?_⟩
    generalize denoted : around.denoted? name.value = declaration at known
    cases known
    simp only [Environment.referenceErrors, Environment.headingOf?, denoted, Option.map_some]
    exact .refl _
  next nothing =>
    rw [nothing] at known
    refine (report_ends _).bind ?_
    rintro _ _ rfl
    refine .pure ⟨known, ?_⟩
    generalize denoted : around.denoted? name.value = declaration at known
    cases known
    simp only [Environment.referenceErrors, Environment.headingOf?, denoted, Option.map_none,
      lookalike?_eq sees tracks]
    rfl

omit sees in
theorem symbolOf?_of_matches {name : String} {found : Option SymbolIndex}
    (denotes : table.Matches (around.denoted? name) found) : found = around.symbolOf? name := by
  rw [Environment.symbolOf?, Environment.headingOf?]
  generalize around.denoted? name = declaration at denotes
  cases denotes with
  | nothing => rfl
  | found own => exact own.1.symm

theorem typeName_ends (tracks : walk.Tracks table cursors) (path : Identifier)
    (known : Option SymbolIndex) :
    (typeName path known).Ends walk fun result after =>
      result = around.structOf? path known ∧ walk.Reports after (around.typeErrors table path) := by
  refine (reference_ends sees tracks path).bind ?_
  rintro found middle ⟨denotes, reports⟩
  rw [Environment.referenceErrors] at reports
  rw [Environment.structOf?, Environment.typeErrors]
  generalize denoted : around.denoted? path.value = declaration at denotes
  cases denotes with
  | nothing =>
    simp only [Environment.headingOf?, denoted, Option.map_none] at reports ⊢
    exact .pure ⟨rfl, reports⟩
  | @found declaration scope index own =>
    simp only [Environment.headingOf?, denoted, Option.map_some] at reports ⊢
    refine (symbol_ends index).bind ?_
    rintro symbol _ ⟨rfl, present⟩
    -- reports do not change what kinds the symbols are of, and where they were declared
    have shape := (reports.tracks tracks).shape
    have isStruct : symbol.kind.isStruct = decide (declaration.heading.kind = .struct) := by
      rw [← own.isStruct, ← shape.isStruct, SymbolTable.isStruct, present]
      rfl
    have declared : table.place declaration.heading.symbol = symbol.span := by
      rw [own.1, ← shape.place, SymbolTable.place, Option.bind_some, present]
      rfl
    by_cases struct : declaration.heading.kind = .struct
    · simp only [isStruct, struct, decide_true, ↓reduceIte]
      exact .pure ⟨own.1.symm, reports⟩
    · simp only [isStruct, struct, decide_false, Bool.false_eq_true, ↓reduceIte, declared]
      refine (report_ends _).bind ?_
      rintro _ _ rfl
      exact .pure ⟨rfl, reports.trans rfl⟩

theorem resolve_ends (type : Ty) (tracks : walk.Tracks table cursors) :
    type.resolve.Ends walk fun result after =>
      result = type.bind around ∧ walk.Reports after (nameErrors table (type.sightings around)) := by
  -- the induction is on the parts of the type, with one of its own over the parameters
  induction type using Ty.byParts generalizing walk with
  | builtin | struct => exact .pure ⟨rfl, .refl _⟩
  | pointer target ih =>
    refine (ih tracks).bind ?_
    rintro _ after ⟨rfl, reports⟩
    exact .pure ⟨rfl, reports⟩
  | named path symbol =>
    refine (typeName_ends sees tracks path symbol).bind ?_
    rintro _ after ⟨rfl, reports⟩
    rw [← nameErrors_typeName table around path symbol] at reports
    exact .pure ⟨rfl, reports⟩
  | procedure parameters isVariadic result ihParameters ihResult =>
    -- each parameter is resolved where the ones before it have left the walk
    have inner : (Ty.resolveParameters parameters).Ends walk fun result after =>
        result = Ty.bindParameters around parameters ∧
          walk.Reports after (nameErrors table (Ty.parameterSightings around parameters)) := by
      clear ihResult
      induction parameters generalizing walk with
      | nil => exact .pure ⟨rfl, .refl _⟩
      | cons first rest ih =>
        simp only [List.mem_cons, forall_eq_or_imp] at ihParameters
        refine (ihParameters.1 tracks).bind ?_
        rintro _ middle ⟨rfl, reports⟩
        refine (ih ihParameters.2 (reports.tracks tracks)).bind ?_
        rintro _ after ⟨rfl, further⟩
        exact .pure ⟨rfl, nameErrors_append _ _ ▸ reports.trans further⟩
    refine inner.bind ?_
    rintro _ middle ⟨rfl, reports⟩
    refine (ihResult (reports.tracks tracks)).bind ?_
    rintro _ after ⟨rfl, further⟩
    exact .pure ⟨rfl, nameErrors_append _ _ ▸ reports.trans further⟩

theorem annotated_ends (type : Annotation) (tracks : walk.Tracks table cursors) :
    (annotated type).Ends walk fun result after =>
      result = type.map (Ty.bind around) ∧
        walk.Reports after (nameErrors table (type.value.sightings around)) := by
  refine (resolve_ends sees type.value tracks).bind ?_
  rintro _ after ⟨rfl, reports⟩
  exact .pure ⟨rfl, reports⟩

theorem annotatedOption_ends (type : Option Annotation) (tracks : walk.Tracks table cursors) :
    (type.mapM annotated).Ends walk fun result after =>
      result = type.map (Spanned.map (Ty.bind around)) ∧
        walk.Reports after (nameErrors table (annotationSightings around type)) := by
  cases type with
  | none => exact .pure ⟨rfl, .refl _⟩
  | some type =>
    rw [Option.mapM_some]
    refine .map ((annotated_ends sees type tracks).mono ?_)
    rintro _ after ⟨rfl, reports⟩
    exact ⟨rfl, reports⟩

theorem memberTypes_ends (members : List Member) (tracks : walk.Tracks table cursors) :
    (members.mapM memberType).Ends walk fun result after =>
      result = members.map (Member.map id (Ty.bind around)) ∧
        walk.Reports after (nameErrors table (Member.sightings around members)) := by
  induction members generalizing walk with
  | nil => exact .pure ⟨rfl, .refl _⟩
  | cons first rest ih =>
    have step : (memberType first).Ends walk fun result after =>
        result = first.map id (Ty.bind around) ∧
          walk.Reports after (nameErrors table (first.type.value.sightings around)) := by
      refine (annotated_ends sees first.type tracks).bind ?_
      rintro _ after ⟨rfl, reports⟩
      exact .pure ⟨by simp [Member.map], reports⟩
    rw [List.mapM_cons]
    refine step.bind ?_
    rintro _ middle ⟨rfl, reports⟩
    refine (ih (reports.tracks tracks)).bind ?_
    rintro _ after ⟨rfl, further⟩
    exact .pure ⟨rfl, nameErrors_append _ _ ▸ reports.trans further⟩

end Names

/-- The members of a body are recorded with their types. -/
theorem meetMembers_ends (members : List Member) :
    (members.forM meetMember).Ends walk fun _ after =>
      walk.Notes after (walk.types.record (Member.entries members)) 0 [] := by
  induction members generalizing walk with
  | nil => exact .pure (.refl _)
  | cons first rest ih =>
    have step : (meetMember first).Ends walk fun _ after => walk.Notes after
        (walk.types.record (entryOf first.symbol (some first.type.value))) 0 [] := by
      refine (meet_ends first.symbol).bind ?_
      rintro index middle ⟨own, notes⟩
      refine (setType_ends index _).mono fun _ after further => ?_
      rw [notes.types] at further
      rw [own]
      exact notes.append further
    change (meetMember first >>= fun _ => rest.forM meetMember).Ends walk _
    refine step.bind fun _ middle notes => ih.mono fun _ after further => ?_
    rw [notes.types, ← Types.record_append] at further
    exact notes.append further

/-- A reference without a type is deferred if there is a symbol. -/
theorem referenceType_ends (found : Option SymbolIndex) (span : Source.Span) :
    (referenceType found).Ends walk fun result after =>
      result = found.bind walk.types ∧ walk.Notes after walk.types
        ([(⟨span, .reference found, result⟩ : Finding)].countP Finding.isDeferred) [] := by
  cases found with
  | none => exact .pure ⟨rfl, .refl _⟩
  | some index =>
    refine (symbol_ends index).bind ?_
    rintro symbol walk ⟨rfl, present⟩
    have type : walk.types index = symbol.type := by simp [Walk.types, SymbolTable.type?, present]
    rw [Option.bind_some, type]
    cases symbol.type with
    | none =>
      refine (Ends.modify _).bind ?_
      rintro _ _ rfl
      exact .pure ⟨rfl, rfl, rfl, (List.append_nil _).symm⟩
    | some found => exact .pure ⟨rfl, .refl _⟩

section Fields

variable (shape : walk.table.SameShape table)
include shape

theorem layout_ends (type : Ty) :
    (layout type).Ends walk fun result after =>
      after = walk ∧ result = walk.types.layout table.lookupGlobal? type := by
  cases type with
  | struct | builtin | pointer | procedure => exact .pure ⟨rfl, rfl⟩
  | named path known =>
    refine look_ends.bind ?_
    rintro _ walk ⟨rfl, rfl⟩
    simp only [Types.layout, shape.lookupGlobal?, Option.orElse_eq_orElse, Option.orElse_eq_or]
    cases known.or (table.lookupGlobal? path.value) with
    | none => exact .pure ⟨rfl, rfl⟩
    | some index =>
      refine (symbol_ends index).bind ?_
      rintro symbol walk ⟨rfl, present⟩
      refine .pure ⟨rfl, ?_⟩
      simp [Walk.types, SymbolTable.type?, present]

theorem fieldType_ends (target : Expr) (field : Identifier) :
    (fieldType target field).Ends walk fun result after =>
      result = (target.type.elim .unknown (walk.types.layout table.lookupGlobal?)).fieldType? field ∧
        walk.Notes after walk.types 0 (target.type.elim [] fun type =>
          (walk.types.layout table.lookupGlobal? type).errors type target.span field) := by
  have reports (error : ResolutionError) :
      (report error).Ends walk fun _ after => walk.Notes after walk.types 0 [error] := by
    refine (report_ends error).mono ?_
    rintro _ _ rfl
    exact ⟨rfl, rfl, rfl⟩
  -- nothing is said about a target without a type, or whose layout is not known
  unfold fieldType
  split
  next nothing =>
    rw [nothing]
    exact .pure ⟨rfl, .refl _⟩
  next type known =>
    rw [known, Option.elim_some, Option.elim_some]
    refine (layout_ends shape type).bind ?_
    rintro layout _ ⟨rfl, same⟩
    rw [← same]
    cases layout with
    | unknown => exact .pure ⟨rfl, .refl _⟩
    | notAStruct => exact (reports _).bind fun _ after notes => .pure ⟨rfl, notes⟩
    | struct name fields =>
      simp only [Layout.fieldType?, Layout.errors]
      split
      next candidate found present =>
        rw [present]
        exact .pure ⟨rfl, .refl _⟩
      next absent =>
        rw [absent]
        exact (reports _).bind fun _ after notes => .pure ⟨rfl, notes⟩

end Fields

end Resolving

end Cadence
