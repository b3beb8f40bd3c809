import Cadence.Proofs.Resolution.Place
import Cadence.Proofs.Syntax.Types
import Cadence.Resolution.Type

/-!
# Steps of a walk that stays on track

A walk is on track if its table is the one that the declarations were registered in, apart from
types, and its cursors are where they should be. Every step of such a walk succeeds, and it leaves
the cursors where they are unless it meets a symbol.
-/
namespace Cadence

/-- The symbol that a name in a type records is a struct of that name. -/
def SymbolTable.Binds (table : SymbolTable) (path : Identifier) (symbol : Option SymbolIndex) : Prop :=
  ∀ index ∈ symbol, table.isStruct index = true ∧ table.name? index = some path.value

/-- All names in a type are bound to structs or not yet at all. -/
def SymbolTable.BindsIn (table : SymbolTable) : Ty → Prop := Ty.AllNames table.Binds

theorem SymbolTable.lt_size_of_isStruct {table : SymbolTable} {index : SymbolIndex}
    (known : table.isStruct index = true) : index.value < table.size := by
  rw [table.lt_size_iff]
  rw [table.isStruct_eq] at known
  cases found : table.shape? index with
  | none => simp [found] at known
  | some => rfl

theorem SymbolTable.lt_size_of_lookupGlobal? {table : SymbolTable} {name : String}
    {index : SymbolIndex} (found : table.lookupGlobal? name = some index) :
    index.value < table.size := by
  have named := List.find?_some found
  rw [table.lt_size_iff]
  rw [table.name?_eq] at named
  cases present : table.shape? index with
  | none => simp [present] at named
  | some => rfl

/-- A walk over a unit with a table, with cursors as given. -/
structure Walk.Tracks (walk : Walk) (table : SymbolTable) (cursors : List Cursor) : Prop where
  shape : walk.table.SameShape table
  types : walk.table.AllTypes table.BindsIn
  cursors_eq : walk.cursors = cursors

namespace Resolving

variable {α β : Type}

/-- A step of a walk ends without a fault, and its outcome is as told. -/
def Succeeds (step : Resolving α) (walk : Walk) (outcome : α → Walk → Prop) : Prop :=
  ∃ result after, step.run walk = .ok (result, after) ∧ outcome result after

namespace Succeeds

variable {walk : Walk} {outcome : α → Walk → Prop} {final : β → Walk → Prop}

theorem pure {result : α} (known : outcome result walk) : Succeeds (pure result) walk outcome :=
  ⟨result, walk, rfl, known⟩

theorem bind {step : Resolving α} {next : α → Resolving β} (first : Succeeds step walk outcome)
    (second : ∀ result after, outcome result after → Succeeds (next result) after final) :
    Succeeds (step >>= next) walk final := by
  obtain ⟨result, middle, run, known⟩ := first
  obtain ⟨last, after, further, done⟩ := second result middle known
  refine ⟨last, after, ?_, done⟩
  rw [StateT.run_bind, run]
  exact further

theorem mono {step : Resolving α} {weaker : α → Walk → Prop} (succeeds : Succeeds step walk outcome)
    (implies : ∀ result after, outcome result after → weaker result after) :
    Succeeds step walk weaker := by
  obtain ⟨result, after, run, known⟩ := succeeds
  exact ⟨result, after, run, implies result after known⟩

theorem map {step : Resolving α} {change : α → β}
    (succeeds : Succeeds step walk fun result after => final (change result) after) :
    Succeeds (change <$> step) walk final := by
  rw [← bind_pure_comp]
  exact succeeds.bind fun result after known => .pure known

theorem discard {step : Resolving α} (succeeds : Succeeds step walk outcome) :
    Succeeds (discard step) walk fun _ after => ∃ result, outcome result after := by
  have unfolded : Functor.discard step = step >>= fun _ => Pure.pure PUnit.unit := rfl
  rw [unfolded]
  exact succeeds.bind fun result after known => .pure ⟨result, known⟩

theorem bind_get {next : Walk → Resolving β} (succeeds : Succeeds (next walk) walk final) :
    Succeeds (get >>= next) walk final :=
  succeeds

theorem bind_modify {change : Walk → Walk} {next : PUnit → Resolving β}
    (succeeds : Succeeds (next ⟨⟩) (change walk) final) :
    Succeeds (modify change >>= next) walk final :=
  succeeds

theorem modify {change : Walk → Walk} {outcome : PUnit → Walk → Prop}
    (known : outcome ⟨⟩ (change walk)) : Succeeds (modify change) walk outcome :=
  ⟨⟨⟩, change walk, rfl, known⟩

theorem set {after : Walk} {outcome : PUnit → Walk → Prop} (known : outcome ⟨⟩ after) :
    Succeeds (set after) walk outcome :=
  ⟨⟨⟩, after, rfl, known⟩

end Succeeds

variable {walk : Walk} {table : SymbolTable} {cursors : List Cursor}

theorem report_succeeds (tracks : walk.Tracks table cursors) (error : ResolutionError) :
    (report error).Succeeds walk fun _ after => after.Tracks table cursors :=
  .modify ⟨tracks.shape, tracks.types, tracks.cursors_eq⟩

theorem defer_succeeds (tracks : walk.Tracks table cursors) :
    defer.Succeeds walk fun _ after => after.Tracks table cursors :=
  .modify ⟨tracks.shape, tracks.types, tracks.cursors_eq⟩

theorem symbol_succeeds (tracks : walk.Tracks table cursors) {index : SymbolIndex}
    (present : index.value < table.size) :
    (symbol index).Succeeds walk fun found after =>
      after.Tracks table cursors ∧ found.kind.isStruct = table.isStruct index ∧
        ∀ type ∈ found.type, table.BindsIn type := by
  -- the tables have the same size, so that the symbol is in that of the walk as well
  have inside := (tracks.shape.lt_size index).mpr present
  have found : walk.table.symbol? index = some walk.table.symbols[index.value] :=
    Array.getElem?_eq_getElem inside
  apply Succeeds.bind_get
  dsimp only
  rw [found]
  refine .pure ⟨tracks, ?_, tracks.types _ _ found⟩
  rw [← tracks.shape.isStruct, SymbolTable.isStruct, found]
  rfl

theorem setType_succeeds (tracks : walk.Tracks table cursors) {index : SymbolIndex}
    (present : index.value < table.size) {type : Option Ty}
    (known : ∀ found ∈ type, table.BindsIn found) :
    (setType index type).Succeeds walk fun _ after => after.Tracks table cursors := by
  refine (symbol_succeeds tracks present).discard.bind fun _ after ⟨_, tracks, _⟩ => .modify ?_
  exact ⟨tracks.shape.setType index type, SymbolTable.allTypes_setType tracks.types index known,
    tracks.cursors_eq⟩

section Looking

variable {around : Environment} (tracks : walk.Tracks table cursors)
  (sees : table.Sees cursors around)
include tracks sees

theorem look_succeeds : look.Succeeds walk fun result after => result = walk ∧ after = walk := by
  apply Succeeds.bind_get
  -- the check of all accesses passes
  have inRange : walk.IsInRange := by
    intro cursor member
    rw [tracks.cursors_eq] at member
    obtain ⟨scope, position, children⟩ := sees.inRange cursor member
    simp only [tracks.shape.lt_size, tracks.shape.children]
    exact ⟨scope, position, children⟩
  rw [if_pos inRange]
  exact .pure ⟨rfl, rfl⟩

theorem lookup?_matches (name : String) :
    table.Matches (around.denoted? name) (walk.lookup? name) := by
  have denotes := sees.denotes name
  have answers : walk.table.answers = table.answers := by
    funext name index
    rw [SymbolTable.answers, SymbolTable.answers, tracks.shape.name?]
  have met : walk.met = fun cursor =>
      ((table.children cursor.scope).take cursor.position).reverse := by
    funext cursor
    rw [Walk.met, tracks.shape.children]
  rw [Walk.lookup?, Walk.visible, tracks.cursors_eq, met, tracks.shape.lookupGlobal?]
  simp only [Option.orElse_eq_orElse, Option.orElse_eq_or]
  rw [← answers] at denotes
  exact denotes

theorem reference_succeeds (name : Identifier) :
    (reference name).Succeeds walk fun result after =>
      after.Tracks table cursors ∧ table.Matches (around.denoted? name.value) result := by
  apply (look_succeeds tracks sees).bind
  rintro _ _ ⟨rfl, rfl⟩
  have known := lookup?_matches tracks sees name.value
  split
  next index found => exact .pure ⟨tracks, found ▸ known⟩
  next nothing =>
    refine (report_succeeds tracks _).bind fun _ _ tracks => .pure ⟨tracks, nothing ▸ known⟩

end Looking

/-- The symbol that is expected at the innermost cursor is met. -/
theorem meet_succeeds {cursor : Cursor} {outer : List Cursor}
    (tracks : walk.Tracks table (cursor :: outer)) {expected : Option SymbolIndex}
    {index : SymbolIndex} (known : expected = some index)
    (there : (table.children cursor.scope)[cursor.position]? = some index) :
    (meet expected).Succeeds walk fun found after =>
      found = index ∧ after.Tracks table (cursor.next :: outer) := by
  obtain ⟨shape, types, cursors⟩ := tracks
  apply Succeeds.bind_get
  subst known
  have found : (walk.table.children cursor.scope)[cursor.position]? = some index := by
    rw [shape.children, there]
  simp only [cursors, List.headD_cons, found, ↓reduceIte]
  unfold Walk.cursors at cursors
  split
  -- no body is open: the global cursor goes on
  next empty =>
    rw [empty, List.nil_append, List.cons.injEq] at cursors
    obtain ⟨rfl, rfl⟩ := cursors
    exact .bind (.set ⟨shape, types, by simp [Walk.cursors, empty, Cursor.next]⟩) fun _ _ tracks =>
      .pure ⟨rfl, tracks⟩
  -- the cursor of the innermost body goes on
  next current inner same =>
    rw [same, List.cons_append, List.cons.injEq] at cursors
    obtain ⟨rfl, rfl⟩ := cursors
    exact .bind (.set ⟨shape, types, by simp [Walk.cursors, Cursor.next]⟩) fun _ _ tracks =>
      .pure ⟨rfl, tracks⟩

/-- A body is walked over if all symbols of its scope are met in it. -/
theorem withinBody_succeeds {cursor : Cursor} {outer : List Cursor}
    (tracks : walk.Tracks table (cursor :: outer)) {owner scope : SymbolIndex}
    (body : table.bodyScope? owner = some scope)
    (there : (table.children cursor.scope)[cursor.position]? = some scope)
    {content : Resolving α} {property : α → Prop}
    (inside : ∀ start : Walk, start.Tracks table (⟨scope, 0⟩ :: cursor.next :: outer) →
      content.Succeeds start fun result after => property result ∧
        after.Tracks table (⟨scope, (table.children scope).length⟩ :: cursor.next :: outer)) :
    (withinBody owner content).Succeeds walk fun result after =>
      property result ∧ after.Tracks table (cursor.next :: outer) := by
  apply Succeeds.bind_get
  rw [tracks.shape.bodyScope?, body]
  apply (meet_succeeds tracks rfl there).bind
  rintro found met ⟨rfl, shape, types, cursors⟩
  -- what was met is the scope, and its cursor starts in front of its first symbol
  have entered : ({ met with inner := ⟨found, 0⟩ :: met.inner } : Walk).Tracks table
      (⟨found, 0⟩ :: cursor.next :: outer) :=
    ⟨shape, types, by rw [← cursors]; rfl⟩
  refine .bind_modify ((inside _ entered).bind ?_)
  rintro result after ⟨known, shape, types, cursors⟩
  apply Succeeds.bind_get
  unfold Walk.cursors at cursors
  split
  -- all symbols of the scope were met, as they have to be
  next current inner same =>
    rw [same, List.cons_append, List.cons.injEq] at cursors
    obtain ⟨rfl, behind⟩ := cursors
    rw [if_pos (by rw [shape.children])]
    exact .bind (.set ⟨shape, types, behind⟩) fun _ _ tracks => .pure ⟨known, tracks⟩
  next empty => simp [empty] at cursors

section Names

variable {around : Environment} (tracks : walk.Tracks table cursors)
  (sees : table.Sees cursors around)
include tracks sees

/-- A name in a type comes to be bound as it should. -/
theorem typeName_succeeds {path : Identifier} {known : Option SymbolIndex}
    (binds : table.Binds path known) (isOpen : (Sighting.typeName around path known).IsOpen) :
    (typeName path known).Succeeds walk fun result after =>
      after.Tracks table cursors ∧ table.Binds path result ∧
        (Sighting.typeName around path result).IsRight := by
  apply (reference_succeeds tracks sees path).bind
  rintro found after ⟨tracks, denotes⟩
  simp only [Sighting.IsOpen, Sighting.IsRight] at isOpen ⊢
  cases denoted : around.denoted? path.value with
  -- nothing is denoted, and a name that records a symbol of an earlier walk would be wrong
  | none =>
    rw [denoted] at denotes isOpen
    cases denotes
    exact .pure ⟨tracks, binds, isOpen.elim id id⟩
  | some declaration =>
    rw [denoted] at denotes isOpen
    obtain _ | @⟨_, scope, index, own⟩ := denotes
    have isStruct := own.isStruct
    apply (symbol_succeeds tracks own.lt_size).bind
    rintro symbol after ⟨tracks, kind, _⟩
    rw [isStruct] at kind
    dsimp only at isOpen ⊢
    -- only structs are types: the symbol is recorded, or the name is reported and keeps what it has
    by_cases struct : declaration.heading.kind = .struct
    · simp only [struct, decide_true, ↓reduceIte] at kind isStruct ⊢
      rw [kind, if_pos rfl]
      refine .pure ⟨tracks, ?_, rfl, own.1.symm⟩
      rintro _ ⟨⟩
      rw [own.name?, ← Environment.name_of_denoted? denoted]
      exact ⟨isStruct, rfl⟩
    · simp only [struct, decide_false, ↓reduceIte] at kind isOpen ⊢
      rw [kind, if_neg (by simp)]
      exact (report_succeeds tracks _).bind fun _ _ tracks =>
        .pure ⟨tracks, binds, isOpen.elim id id⟩

end Names

end Resolving

/-- All names in a type are bound, and as they should be at some place. -/
structure Ty.IsResolved (table : SymbolTable) (around : Environment) (type : Ty) : Prop where
  binds : table.BindsIn type
  right : ∀ sighting ∈ type.sightings around, sighting.IsRight

/-- Nothing in a type is in the way of its resolution at some place. -/
structure Ty.IsResolvable (table : SymbolTable) (around : Environment) (type : Ty) : Prop where
  binds : table.BindsIn type
  isOpen : ∀ sighting ∈ type.sightings around, sighting.IsOpen

namespace Resolving

section Types

variable {walk : Walk} {table : SymbolTable} {cursors : List Cursor} {around : Environment}

mutual

theorem resolve_succeeds (sees : table.Sees cursors around) {type : Ty}
    (resolvable : type.IsResolvable table around) {walk : Walk}
    (tracks : walk.Tracks table cursors) :
    type.resolve.Succeeds walk fun result after =>
      after.Tracks table cursors ∧ result.IsResolved table around := by
  obtain ⟨binds, isOpen⟩ := resolvable
  cases type with
  | builtin type => exact .pure ⟨tracks, trivial, by simp [Ty.sightings]⟩
  | struct name fields => exact .pure ⟨tracks, binds, by simp [Ty.sightings]⟩
  | pointer target =>
    have inner : target.IsResolvable table around := ⟨binds, isOpen⟩
    apply (resolve_succeeds sees inner tracks).bind
    rintro result after ⟨tracks, binds, right⟩
    exact .pure ⟨tracks, binds, right⟩
  | procedure parameters isVariadic result =>
    obtain ⟨bindsParameters, bindsResult⟩ := binds
    -- the parameters are resolved from left to right, and the result behind them
    rw [Ty.sightings, List.forall_mem_append] at isOpen
    apply (resolveParameters_succeeds sees bindsParameters isOpen.1 tracks).bind
    rintro parameters after ⟨tracks, bindsParameters, rightParameters⟩
    refine (resolve_succeeds sees ⟨bindsResult, isOpen.2⟩ tracks).bind ?_
    rintro result after ⟨tracks, bindsResult, rightResult⟩
    refine .pure ⟨tracks, ⟨bindsParameters, bindsResult⟩, ?_⟩
    rw [Ty.sightings, List.forall_mem_append]
    exact ⟨rightParameters, rightResult⟩
  | named path known =>
    apply (typeName_succeeds tracks sees binds (isOpen _ (List.mem_singleton_self _))).bind
    rintro result after ⟨tracks, binds, right⟩
    exact .pure ⟨tracks, binds, by simpa [Ty.sightings] using right⟩

theorem resolveParameters_succeeds (sees : table.Sees cursors around)
    {parameters : List (Option String × Ty)}
    (binds : Ty.AllParameterNames table.Binds parameters)
    (isOpen : ∀ sighting ∈ Ty.parameterSightings around parameters, sighting.IsOpen) {walk : Walk}
    (tracks : walk.Tracks table cursors) :
    (Ty.resolveParameters parameters).Succeeds walk fun result after =>
      after.Tracks table cursors ∧ Ty.AllParameterNames table.Binds result ∧
        ∀ sighting ∈ Ty.parameterSightings around result, sighting.IsRight := by
  match parameters with
  | [] => exact .pure ⟨tracks, trivial, by simp [Ty.parameterSightings]⟩
  | (name, type) :: rest =>
    obtain ⟨bindsType, bindsRest⟩ := binds
    rw [Ty.parameterSightings, List.forall_mem_append] at isOpen
    refine (resolve_succeeds sees ⟨bindsType, isOpen.1⟩ tracks).bind ?_
    rintro type after ⟨tracks, bindsType, rightType⟩
    apply (resolveParameters_succeeds sees bindsRest isOpen.2 tracks).bind
    rintro rest after ⟨tracks, bindsRest, rightRest⟩
    refine .pure ⟨tracks, ⟨bindsType, bindsRest⟩, ?_⟩
    rw [Ty.parameterSightings, List.forall_mem_append]
    exact ⟨rightType, rightRest⟩

end

variable (sees : table.Sees cursors around)
include sees

theorem annotated_succeeds {type : Annotation} (resolvable : type.value.IsResolvable table around)
    (tracks : walk.Tracks table cursors) :
    (annotated type).Succeeds walk fun result after =>
      after.Tracks table cursors ∧ result.value.IsResolved table around := by
  apply (resolve_succeeds sees resolvable tracks).bind
  rintro result after ⟨tracks, resolved⟩
  exact .pure ⟨tracks, resolved⟩

theorem annotatedOption_succeeds {type : Option Annotation}
    (resolvable : ∀ annotated ∈ type, annotated.value.IsResolvable table around)
    (tracks : walk.Tracks table cursors) :
    (type.mapM annotated).Succeeds walk fun result after =>
      after.Tracks table cursors ∧ ∀ annotated ∈ result, annotated.value.IsResolved table around := by
  cases type with
  | none => exact .pure ⟨tracks, by simp⟩
  | some annotated =>
    rw [Option.mapM_some]
    refine .map ((annotated_succeeds sees (resolvable annotated rfl) tracks).mono ?_)
    rintro result after ⟨tracks, resolved⟩
    exact ⟨tracks, by simpa using resolved⟩

theorem memberTypes_succeeds {members : List Member}
    (resolvable : ∀ member ∈ members, member.type.value.IsResolvable table around) {walk : Walk}
    (tracks : walk.Tracks table cursors) :
    (members.mapM memberType).Succeeds walk fun result after =>
      after.Tracks table cursors ∧ Member.declarations result = Member.declarations members ∧
        ∀ member ∈ result, member.type.value.IsResolved table around := by
  induction members generalizing walk with
  | nil => exact .pure ⟨tracks, rfl, by simp⟩
  | cons first rest ih =>
    simp only [List.mem_cons, forall_eq_or_imp] at resolvable
    have step : (memberType first).Succeeds walk fun result after =>
        after.Tracks table cursors ∧ result.heading = first.heading ∧
          result.type.value.IsResolved table around := by
      apply (annotated_succeeds sees resolvable.1 tracks).bind
      rintro type after ⟨tracks, resolved⟩
      exact .pure ⟨tracks, rfl, resolved⟩
    rw [List.mapM_cons]
    apply step.bind
    rintro first' after ⟨tracks, heading, resolved⟩
    apply (ih resolvable.2 tracks).bind
    rintro rest' after ⟨tracks, headings, others⟩
    refine .pure ⟨tracks, ?_, by simpa using ⟨resolved, others⟩⟩
    simpa [Member.declarations, heading] using headings

end Types

section Fields

variable {walk : Walk} {table : SymbolTable} {cursors : List Cursor} {around : Environment}
  (tracks : walk.Tracks table cursors) (sees : table.Sees cursors around)
include tracks sees

/-- What holds of the types of the fields of a layout. -/
def BindsInLayout (table : SymbolTable) : Layout → Prop
  | .struct _ fields => ∀ field ∈ fields, table.BindsIn field.2
  | .notAStruct | .unknown => True

theorem layout_succeeds {type : Ty} (binds : table.BindsIn type) :
    (layout type).Succeeds walk fun result after =>
      after.Tracks table cursors ∧ BindsInLayout table result := by
  cases type with
  | struct name fields => exact .pure ⟨tracks, (Ty.allFieldNames_iff _ _).mp binds⟩
  | builtin | pointer | procedure => exact .pure ⟨tracks, trivial⟩
  | named path known =>
    refine .bind (look_succeeds tracks sees) ?_
    rintro _ _ ⟨rfl, rfl⟩
    split
    next => exact .pure ⟨tracks, trivial⟩
    next index found =>
      -- the symbol comes from the type itself or from the global scope
      have present : index.value < table.size := by
        simp only [Option.orElse_eq_orElse, Option.orElse_eq_or, Option.or_eq_some_iff] at found
        rcases found with bound | ⟨_, global⟩
        · exact SymbolTable.lt_size_of_isStruct (binds index bound).1
        · rw [tracks.shape.lookupGlobal?] at global
          exact SymbolTable.lt_size_of_lookupGlobal? global
      apply (symbol_succeeds tracks present).bind
      rintro symbol after ⟨tracks, _, known⟩
      refine .pure ⟨tracks, ?_⟩
      unfold Layout.ofDeclared
      split
      next declared => exact (Ty.allFieldNames_iff _ _).mp (known _ declared)
      next => trivial

theorem fieldType_succeeds {target : Expr} (binds : ∀ type ∈ target.type, table.BindsIn type)
    (field : Identifier) :
    (fieldType target field).Succeeds walk fun result after =>
      after.Tracks table cursors ∧ ∀ type ∈ result, table.BindsIn type := by
  unfold fieldType
  split
  next => exact .pure ⟨tracks, by simp⟩
  next type known =>
    apply (layout_succeeds tracks sees (binds type known)).bind
    rintro layout after ⟨tracks, fieldsBind⟩
    split
    next => exact .pure ⟨tracks, by simp⟩
    next => exact (report_succeeds tracks _).bind fun _ _ tracks => .pure ⟨tracks, by simp⟩
    next name fields =>
      split
      next candidate found present =>
        refine .pure ⟨tracks, ?_⟩
        rintro _ ⟨⟩
        exact fieldsBind _ (List.mem_of_find?_eq_some present)
      next => exact (report_succeeds tracks _).bind fun _ _ tracks => .pure ⟨tracks, by simp⟩

end Fields

end Resolving

end Cadence