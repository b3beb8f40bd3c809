import Cadence.Proofs.Diagnostic.Rendering
import Cadence.Proofs.Resolution.Runs
import Cadence.Proofs.Symbol.Places
import Mathlib.Data.Option.Basic

/-!
# The places that errors of the resolution point at

An error points at a place in the tree that is walked over, or at the declaration of a symbol that a
name denotes. A name never denotes a scope, whose place would not be that of a declaration. So what
holds of the places in the trees and in the table holds of all that is pointed at.
-/
namespace Cadence

open Source (Span)

/-- Something holds of the places in the table and of those that errors point at. -/
structure Walk.AllPlaces (holds : Span → Prop) (walk : Walk) : Prop where
  table : walk.table.AllPlaces holds
  errors : ∀ error ∈ walk.errors, error.diagnostic.AllPlaces holds

/-- A scope has no name. -/
theorem SymbolTable.not_isScope_of_name? {table : SymbolTable} {index : SymbolIndex} {name : String}
    (named : table.name? index = some name) {symbol : Symbol}
    (found : table.symbol? index = some symbol) : symbol.kind.isScope = false := by
  rw [name?, found] at named
  cases isScope : symbol.kind.isScope with
  | false => rfl
  | true => simp [isScope] at named

/-- What a name denotes has this name. -/
theorem Walk.name?_of_lookup? {walk : Walk} {name : String} {index : SymbolIndex}
    (found : walk.lookup? name = some index) : walk.table.name? index = some name := by
  rcases (Option.orElse_eq_some _ _ _).mp found with visible | ⟨_, declared⟩
  · simpa using List.find?_some visible
  · rw [SymbolTable.lookupGlobal?] at declared
    simpa using List.find?_some declared

namespace Resolving

variable {α β : Type} {holds : Span → Prop}

/-- A step of a walk keeps what holds of places, and its result has a property. -/
def KeepsPlaces (holds : Span → Prop) (step : Resolving α) (property : α → Prop) : Prop :=
  ∀ walk : Walk, walk.AllPlaces holds →
    step.Ends walk fun result after => after.AllPlaces holds ∧ property result

namespace KeepsPlaces

variable {property : α → Prop} {final : β → Prop}

theorem pure {result : α} (known : property result) : KeepsPlaces holds (pure result) property :=
  fun _ places => .pure ⟨places, known⟩

theorem fault (fault : Fault) : KeepsPlaces holds (throw fault) property :=
  fun _ _ => .fault fault

theorem bind {step : Resolving α} {next : α → Resolving β} (first : KeepsPlaces holds step property)
    (second : ∀ result, property result → KeepsPlaces holds (next result) final) :
    KeepsPlaces holds (step >>= next) final := fun walk places =>
  (first walk places).bind fun result middle known => second result known.2 middle known.1

theorem map {step : Resolving α} {change : α → β}
    (keeps : KeepsPlaces holds step fun result => final (change result)) :
    KeepsPlaces holds (change <$> step) final := fun walk places => (keeps walk places).map

theorem get {next : Walk → Resolving β}
    (known : ∀ walk : Walk, walk.AllPlaces holds → KeepsPlaces holds (next walk) final) :
    KeepsPlaces holds (get >>= next) final := fun walk places =>
  .bind_get (known walk places walk places)

theorem modify {change : Walk → Walk}
    (keeps : ∀ walk : Walk, walk.AllPlaces holds → (change walk).AllPlaces holds) :
    KeepsPlaces holds (modify change) fun _ => True := by
  intro walk places
  refine (Ends.modify change).mono ?_
  rintro _ _ rfl
  exact ⟨keeps walk places, trivial⟩

theorem set {last : Walk} (places : last.AllPlaces holds) :
    KeepsPlaces holds (set last) fun _ => True := by
  intro walk _
  refine (Ends.set last).mono ?_
  rintro _ _ rfl
  exact ⟨places, trivial⟩

theorem mapM {step : β → Resolving α} {items : List β}
    (each : ∀ item ∈ items, KeepsPlaces holds (step item) property) :
    KeepsPlaces holds (items.mapM step) fun results => ∀ result ∈ results, property result := by
  induction items with
  | nil => exact pure (List.forall_mem_nil _)
  | cons first rest ih =>
    obtain ⟨own, others⟩ := List.forall_mem_cons.mp each
    rw [List.mapM_cons]
    exact bind own fun result known => bind (ih others) fun results more =>
      pure (List.forall_mem_cons.mpr ⟨known, more⟩)

theorem optionMapM {step : β → Resolving α} {item : Option β}
    (each : ∀ found ∈ item, KeepsPlaces holds (step found) property) :
    KeepsPlaces holds (item.mapM step) fun result => ∀ found ∈ result, property found := by
  cases item with
  | none => exact pure nofun
  | some found =>
    apply map
    intro walk places
    refine (each found rfl walk places).mono ?_
    rintro result after ⟨kept, known⟩
    exact ⟨kept, fun _ same => Option.some.inj same ▸ known⟩

theorem forM {step : β → Resolving PUnit} {items : List β}
    (each : ∀ item, KeepsPlaces holds (step item) fun _ => True) :
    KeepsPlaces holds (items.forM step) fun _ => True := by
  induction items with
  | nil => exact pure trivial
  | cons first rest ih =>
    change KeepsPlaces holds (step first >>= fun _ => rest.forM step) _
    exact bind (each first) fun _ _ => ih

end KeepsPlaces

section Steps

theorem keepsPlaces_report {error : ResolutionError} (known : error.diagnostic.AllPlaces holds) :
    KeepsPlaces holds (report error) fun _ => True :=
  .modify fun _ places => ⟨places.table, List.forall_mem_append.mpr
    ⟨places.errors, List.forall_mem_singleton.mpr known⟩⟩

theorem keepsPlaces_symbol (index : SymbolIndex) :
    KeepsPlaces holds (symbol index) fun _ => True := by
  apply KeepsPlaces.get
  intro walk _
  dsimp only
  split
  next => exact .pure trivial
  next => exact .fault _

theorem keepsPlaces_setType (index : SymbolIndex) (type : Option Ty) :
    KeepsPlaces holds (setType index type) fun _ => True := by
  have looked : KeepsPlaces holds (discard (symbol index)) fun _ => True := fun walk places =>
    (keepsPlaces_symbol index walk places).discard.mono fun _ _ ⟨_, known⟩ => known
  exact .bind looked fun _ _ =>
    .modify fun _ places => ⟨SymbolTable.allPlaces_setType places.table index type, places.errors⟩

theorem keepsPlaces_meet (expected : Option SymbolIndex) :
    KeepsPlaces holds (meet expected) fun _ => True := by
  apply KeepsPlaces.get
  intro walk places
  dsimp only
  split
  next =>
    split
    next =>
      split
      next => exact .bind (.set ⟨places.table, places.errors⟩) fun _ _ => .pure trivial
      next => exact .bind (.set ⟨places.table, places.errors⟩) fun _ _ => .pure trivial
    next => exact .fault _
  next => exact .fault _

theorem keepsPlaces_withinBody {property : α → Prop} (owner : SymbolIndex) {content : Resolving α}
    (inside : KeepsPlaces holds content property) :
    KeepsPlaces holds (withinBody owner content) property := by
  apply KeepsPlaces.get
  intro walk _
  apply KeepsPlaces.bind (keepsPlaces_meet _)
  intro scope _
  refine .bind (.modify fun _ places => ⟨places.table, places.errors⟩) ?_
  intro _ _
  apply KeepsPlaces.bind inside
  intro result known
  -- behind the content, the scope is only left
  apply KeepsPlaces.get
  intro walk places
  split
  next =>
    split
    next => exact .bind (.set ⟨places.table, places.errors⟩) fun _ _ => .pure known
    next => exact .fault _
  next => exact .fault _

theorem keepsPlaces_look : KeepsPlaces holds look fun _ => True := by
  apply KeepsPlaces.get
  intro walk _
  split
  next => exact .pure trivial
  next => exact .fault _

/-- A name that denotes a symbol leaves the walk as it is, and one that denotes none is reported. -/
theorem reference_ends_named {walk : Walk} (places : walk.AllPlaces holds) {name : Identifier}
    (known : holds name.span) : (reference name).Ends walk fun found after =>
      after.AllPlaces holds ∧ ∀ index ∈ found, after.table.name? index = some name.value := by
  refine look_ends.bind ?_
  rintro _ walk ⟨rfl, rfl⟩
  cases found : walk.lookup? name.value with
  | some index =>
    have named : ∀ other ∈ some index, walk.table.name? other = some name.value := by
      rintro _ ⟨⟩
      exact Walk.name?_of_lookup? found
    exact .pure ⟨places, named⟩
  | none =>
    have pointed :
        (ResolutionError.undefinedName name (walk.lookalike? name.value)).diagnostic.AllPlaces holds := by
      cases lookalike : walk.lookalike? name.value <;> simp [ResolutionError.diagnostic, known]
    refine (keepsPlaces_report pointed walk places).bind ?_
    rintro _ after ⟨kept, _⟩
    exact .pure ⟨kept, nofun⟩

theorem keepsPlaces_reference {name : Identifier} (known : holds name.span) :
    KeepsPlaces holds (reference name) fun _ => True := fun _ places =>
  (reference_ends_named places known).mono fun _ _ ends => ⟨ends.1, trivial⟩

theorem keepsPlaces_typeName {path : Identifier} (known : holds path.span)
    (before : Option SymbolIndex) : KeepsPlaces holds (typeName path before) fun _ => True := by
  intro walk places
  refine (reference_ends_named places known).bind ?_
  rintro found middle ⟨places, named⟩
  cases found with
  | none => exact .pure ⟨places, trivial⟩
  | some index =>
    refine (symbol_ends index).bind ?_
    rintro symbol _ ⟨rfl, present⟩
    split
    next => exact .pure ⟨places, trivial⟩
    next =>
      -- whatever else the name denotes is declared somewhere
      have declared : holds symbol.span :=
        places.table index symbol present (SymbolTable.not_isScope_of_name? (named index rfl) present)
      have pointed : (ResolutionError.notAType path symbol.span).diagnostic.AllPlaces holds := by
        simp [ResolutionError.diagnostic, known, declared]
      exact KeepsPlaces.bind (keepsPlaces_report pointed) (fun _ _ => .pure trivial) _ places

theorem keepsPlaces_layout (type : Ty) : KeepsPlaces holds (layout type) fun _ => True := by
  cases type with
  | named path known =>
    rw [layout]
    apply KeepsPlaces.bind keepsPlaces_look
    intro walk _
    split
    next => exact .pure trivial
    next => exact .bind (keepsPlaces_symbol _) fun _ _ => .pure trivial
  | builtin | pointer | procedure | struct => exact .pure trivial

theorem keepsPlaces_fieldType {target : Expr} {field : Identifier} (first : holds target.span)
    (second : holds field.span) : KeepsPlaces holds (fieldType target field) fun _ => True := by
  rw [fieldType]
  split
  next => exact .pure trivial
  next type _ =>
    apply KeepsPlaces.bind (keepsPlaces_layout type)
    intro found _
    split
    next => exact .pure trivial
    next =>
      have pointed : (ResolutionError.noFields field target.span type).diagnostic.AllPlaces holds := by
        simp [ResolutionError.diagnostic, first, second]
      exact .bind (keepsPlaces_report pointed) fun _ _ => .pure trivial
    next name fields =>
      split
      next => exact .pure trivial
      next =>
        apply KeepsPlaces.bind
        · -- a lookalike is told in a note, which points at nothing
          apply keepsPlaces_report
          cases lookalike : (fields.map Prod.fst).find? (isLookalike field.value) <;>
            simp [ResolutionError.diagnostic, second]
        · exact fun _ _ => .pure trivial

theorem keepsPlaces_referenceType (found : Option SymbolIndex) :
    KeepsPlaces holds (referenceType found) fun _ => True := by
  cases found with
  | none => exact .pure trivial
  | some index =>
    apply KeepsPlaces.bind (keepsPlaces_symbol index)
    intro symbol _
    dsimp only
    split
    next =>
      exact .bind (.modify fun _ places => ⟨places.table, places.errors⟩) fun _ _ => .pure trivial
    next => exact .pure trivial

end Steps

end Resolving

open Resolving

section Trees

variable {holds : Span → Prop}

mutual

theorem Ty.keepsPlaces_resolve {type : Ty} (known : ∀ place ∈ type.places, holds place) :
    KeepsPlaces holds type.resolve fun result => ∀ place ∈ result.places, holds place := by
  cases type with
  | builtin | struct => exact .pure known
  | pointer target => exact .bind (Ty.keepsPlaces_resolve known) fun target known => .pure known
  | procedure parameters isVariadic result =>
    obtain ⟨first, second⟩ := List.forall_mem_append.mp known
    exact .bind (Ty.keepsPlaces_resolveParameters first) fun parameters first =>
      .bind (Ty.keepsPlaces_resolve second) fun result second => .pure <|
        List.forall_mem_append.mpr ⟨first, second⟩
  | named path symbol =>
    exact .bind (keepsPlaces_typeName (List.forall_mem_singleton.mp known) symbol) fun _ _ =>
      .pure known

theorem Ty.keepsPlaces_resolveParameters {parameters : List (Option String × Ty)}
    (known : ∀ place ∈ Ty.parameterPlaces parameters, holds place) :
    KeepsPlaces holds (Ty.resolveParameters parameters) fun results =>
      ∀ place ∈ Ty.parameterPlaces results, holds place := by
  match parameters with
  | [] => exact .pure known
  | (name, type) :: rest =>
    obtain ⟨own, others⟩ := List.forall_mem_append.mp known
    exact .bind (Ty.keepsPlaces_resolve own) fun type own =>
      .bind (Ty.keepsPlaces_resolveParameters others) fun rest others => .pure <|
        List.forall_mem_append.mpr ⟨own, others⟩

end

namespace Resolving

theorem keepsPlaces_annotated {type : Annotation} (known : ∀ place ∈ type.places, holds place) :
    KeepsPlaces holds (annotated type) fun result => ∀ place ∈ result.places, holds place := by
  obtain ⟨own, names⟩ := List.forall_mem_cons.mp known
  exact .bind (Ty.keepsPlaces_resolve names) fun value names => .pure <|
    List.forall_mem_cons.mpr ⟨own, names⟩

theorem keepsPlaces_memberType {member : Member} (known : ∀ place ∈ member.places, holds place) :
    KeepsPlaces holds (memberType member) fun result => ∀ place ∈ result.places, holds place := by
  obtain ⟨own, type⟩ := List.forall_mem_cons.mp known
  exact .bind (keepsPlaces_annotated type) fun type known => .pure <|
    List.forall_mem_cons.mpr ⟨own, known⟩

theorem keepsPlaces_meetMember (member : Member) :
    KeepsPlaces holds (meetMember member) fun _ => True :=
  .bind (keepsPlaces_meet member.symbol) fun _ _ => keepsPlaces_setType _ _

theorem keepsPlaces_procedureHead {head : ProcedureHead} {span : Span}
    (known : ∀ place ∈ head.places span, holds place) :
    KeepsPlaces holds (procedureHead head) fun result =>
      ∀ place ∈ result.2.places span, holds place := by
  obtain ⟨name, parameters, result⟩ := ProcedureHead.forall_places.mp known
  apply KeepsPlaces.bind (keepsPlaces_meet head.symbol)
  intro owner _
  apply KeepsPlaces.bind (.mapM fun declared member => keepsPlaces_memberType (parameters declared member))
  intro parameters known
  apply KeepsPlaces.bind (.optionMapM fun type same => keepsPlaces_annotated (result type same))
  intro result more
  exact .bind (keepsPlaces_setType _ _) fun _ _ => .pure <|
    ProcedureHead.forall_places.mpr ⟨name, known, more⟩

end Resolving

mutual

theorem Node.keepsPlaces_resolve {node : Node} (known : ∀ place ∈ node.places, holds place) :
    KeepsPlaces holds node.resolve fun result => ∀ place ∈ result.places, holds place := by
  -- a walk makes up no places: what it keeps in the tree, it was given
  cases node with
  | procedure span head body =>
    obtain ⟨first, second⟩ := List.forall_mem_append.mp known
    exact .bind (keepsPlaces_procedureHead first) fun (owner, head) first =>
      .bind (Expr.keepsPlaces_resolveBody owner head.parameters second) fun body second => .pure <|
        List.forall_mem_append.mpr ⟨first, second⟩
  | struct span declared =>
    obtain ⟨name, fields⟩ := Struct.forall_places.mp known
    apply KeepsPlaces.bind (keepsPlaces_meet declared.symbol)
    intro owner _
    apply KeepsPlaces.bind (.mapM fun declared member => keepsPlaces_memberType (fields declared member))
    intro fields known
    apply KeepsPlaces.bind (keepsPlaces_withinBody owner (.forM keepsPlaces_meetMember))
    intro _ _
    exact .bind (keepsPlaces_setType _ _) fun _ _ => .pure <|
      Struct.forall_places.mpr ⟨name, known⟩
  | binding span head initializer =>
    obtain ⟨headKnown, initial⟩ := List.forall_mem_append.mp known
    obtain ⟨name, type⟩ := BindingHead.forall_places.mp headKnown
    apply KeepsPlaces.bind (.optionMapM fun annotated same => keepsPlaces_annotated (type annotated same))
    intro type known
    apply KeepsPlaces.bind (Expr.keepsPlaces_resolveOption initial)
    intro initializer initial
    apply KeepsPlaces.bind (keepsPlaces_meet head.symbol)
    intro declared _
    exact .bind (keepsPlaces_setType _ _) fun _ _ => .pure <|
      List.forall_mem_append.mpr ⟨BindingHead.forall_places.mpr ⟨name, known⟩, initial⟩
  | load span path => exact .pure known
  | expression inner => exact .bind (Expr.keepsPlaces_resolve known) fun inner known => .pure known
  | assignment span target operator value =>
    obtain ⟨first, second⟩ := List.forall_mem_append.mp known
    exact .bind (Expr.keepsPlaces_resolve first) fun target first =>
      .bind (Expr.keepsPlaces_resolve second) fun value second => .pure <|
        List.forall_mem_append.mpr ⟨first, second⟩

theorem Expr.keepsPlaces_resolve {expression : Expr}
    (known : ∀ place ∈ expression.places, holds place) :
    KeepsPlaces holds expression.resolve fun result => ∀ place ∈ result.places, holds place := by
  obtain ⟨info, form⟩ := expression
  obtain ⟨own, parts⟩ := List.forall_mem_cons.mp known
  exact .bind (Form.keepsPlaces_resolve info.type parts) fun (form, type) parts => .pure <|
    List.forall_mem_cons.mpr ⟨own, parts⟩

theorem Form.keepsPlaces_resolve {form : Form} (type : Option Ty)
    (known : ∀ place ∈ form.places, holds place) :
    KeepsPlaces holds (form.resolve type) fun result => ∀ place ∈ result.1.places, holds place := by
  cases form with
  | reference binder symbol =>
    exact .bind (keepsPlaces_reference (List.forall_mem_singleton.mp known)) fun found _ =>
      .bind (keepsPlaces_referenceType found) fun _ _ => .pure known
  | field target name =>
    obtain ⟨first, second⟩ := List.forall_mem_append.mp known
    exact .bind (Expr.keepsPlaces_resolve first) fun target first =>
      .bind (keepsPlaces_fieldType (first _ target.mem_places) (List.forall_mem_singleton.mp second))
        fun _ _ => .pure <| List.forall_mem_append.mpr ⟨first, second⟩
  | call callee arguments =>
    obtain ⟨first, second⟩ := List.forall_mem_append.mp known
    exact .bind (Expr.keepsPlaces_resolve first) fun callee first =>
      .bind (Expr.keepsPlaces_resolveAll second) fun arguments second => .pure <|
        List.forall_mem_append.mpr ⟨first, second⟩
  | binary left operator right =>
    obtain ⟨first, second⟩ := List.forall_mem_append.mp known
    exact .bind (Expr.keepsPlaces_resolve first) fun left first =>
      .bind (Expr.keepsPlaces_resolve second) fun right second => .pure <|
        List.forall_mem_append.mpr ⟨first, second⟩
  | unary operator operand | delete operand =>
    exact .bind (Expr.keepsPlaces_resolve known) fun operand known => .pure known
  | cast operand type =>
    obtain ⟨first, second⟩ := List.forall_mem_append.mp known
    exact .bind (Expr.keepsPlaces_resolve first) fun operand first =>
      .bind (keepsPlaces_annotated second) fun type second => .pure <|
        List.forall_mem_append.mpr ⟨first, second⟩
  | block nodes => exact .bind (Node.keepsPlaces_resolveAll known) fun nodes known => .pure known
  | conditional isNegated condition consequent alternative
  | loop isNegated condition consequent alternative =>
    obtain ⟨first, rest⟩ := List.forall_mem_append.mp known
    obtain ⟨second, third⟩ := List.forall_mem_append.mp rest
    exact .bind (Expr.keepsPlaces_resolve first) fun condition first =>
      .bind (Expr.keepsPlaces_resolve second) fun consequent second =>
        .bind (Expr.keepsPlaces_resolveOption third) fun alternative third => .pure <|
          List.forall_mem_append.mpr ⟨first, List.forall_mem_append.mpr ⟨second, third⟩⟩
  | new type => exact .bind (keepsPlaces_annotated known) fun type known => .pure known
  | defer node => exact .bind (Node.keepsPlaces_resolve known) fun node known => .pure known
  | bool | integer | real | text | character | uninitialized => exact .pure known

theorem Expr.keepsPlaces_resolveBody {body : Option Expr} (owner : SymbolIndex)
    (parameters : List Member) (known : ∀ place ∈ Expr.placesOption body, holds place) :
    KeepsPlaces holds (Expr.resolveBody owner parameters body) fun result =>
      ∀ place ∈ Expr.placesOption result, holds place := by
  cases body with
  | none => exact .pure known
  | some body =>
    exact keepsPlaces_withinBody owner <| .bind (.forM keepsPlaces_meetMember) fun _ _ =>
      .bind (Expr.keepsPlaces_resolve known) fun body known => .pure known

theorem Expr.keepsPlaces_resolveOption {expression : Option Expr}
    (known : ∀ place ∈ Expr.placesOption expression, holds place) :
    KeepsPlaces holds (Expr.resolveOption expression) fun result =>
      ∀ place ∈ Expr.placesOption result, holds place := by
  cases expression with
  | none => exact .pure known
  | some inner => exact .bind (Expr.keepsPlaces_resolve known) fun inner known => .pure known

theorem Expr.keepsPlaces_resolveAll {expressions : List Expr}
    (known : ∀ place ∈ Expr.placesAll expressions, holds place) :
    KeepsPlaces holds (Expr.resolveAll expressions) fun results =>
      ∀ place ∈ Expr.placesAll results, holds place := by
  cases expressions with
  | nil => exact .pure known
  | cons first rest =>
    obtain ⟨own, others⟩ := List.forall_mem_append.mp known
    exact .bind (Expr.keepsPlaces_resolve own) fun first own =>
      .bind (Expr.keepsPlaces_resolveAll others) fun rest others => .pure <|
        List.forall_mem_append.mpr ⟨own, others⟩

theorem Node.keepsPlaces_resolveAll {nodes : List Node}
    (known : ∀ place ∈ Node.placesAll nodes, holds place) :
    KeepsPlaces holds (Node.resolveAll nodes) fun results =>
      ∀ place ∈ Node.placesAll results, holds place := by
  cases nodes with
  | nil => exact .pure known
  | cons first rest =>
    obtain ⟨own, others⟩ := List.forall_mem_append.mp known
    exact .bind (Node.keepsPlaces_resolve own) fun first own =>
      .bind (Node.keepsPlaces_resolveAll others) fun rest others => .pure <|
        List.forall_mem_append.mpr ⟨own, others⟩

end

namespace Resolving

theorem keepsPlaces_walk {nodes : List Node} (position : Nat)
    (known : ∀ place ∈ Node.placesAll nodes, holds place) :
    KeepsPlaces holds (walk position nodes) fun result =>
      ∀ place ∈ Node.placesAll result.1, holds place := by
  -- the errors of the walk before are dropped, and the table stays
  refine .bind (.modify fun _ places => ⟨places.table, List.forall_mem_nil _⟩) ?_
  intro _ _
  exact .bind (Node.keepsPlaces_resolveAll known) fun nodes known => .get fun _ _ => .pure known

theorem keepsPlaces_settle {nodes : List Node} (position deferred : Nat)
    (known : ∀ place ∈ Node.placesAll nodes, holds place) :
    KeepsPlaces holds (settle position nodes deferred) fun results =>
      ∀ place ∈ Node.placesAll results, holds place := by
  induction deferred using Nat.strongRecOn generalizing nodes with
  | ind deferred ih =>
    rw [settle]
    split
    next => exact .pure known
    next =>
      apply KeepsPlaces.bind (keepsPlaces_walk position known)
      rintro ⟨nodes, fewer⟩ known
      dsimp only
      split
      next less => exact ih fewer less known
      next => exact .pure known

theorem keepsPlaces_finish : KeepsPlaces holds finish fun _ => True := by
  apply KeepsPlaces.get
  intro walk _
  split
  next => exact .fault _
  next =>
    split
    next => exact .pure trivial
    next => exact .fault _

/-- The errors of a file point at places in it and at declarations. -/
theorem keepsPlaces_file {nodes : List Node} (known : ∀ place ∈ Node.placesAll nodes, holds place) :
    KeepsPlaces holds (file nodes) fun result =>
      ∀ error ∈ result.2, error.diagnostic.AllPlaces holds := by
  apply KeepsPlaces.get
  intro walk _
  apply KeepsPlaces.bind (keepsPlaces_walk walk.position known)
  rintro ⟨nodes, deferred⟩ known
  apply KeepsPlaces.bind (keepsPlaces_settle walk.position deferred known)
  intro nodes _
  exact .get fun _ places => .pure places.errors

end Resolving

/-- What holds of the places in the files of a unit holds of all that its errors point at. -/
theorem Resolved.allPlaces_errors {registered : Registered} {resolved : Resolved}
    (run : ofRegistered registered = .ok resolved) (table : registered.table.AllPlaces holds)
    (known : ∀ nodes ∈ registered.files, ∀ place ∈ Node.placesAll nodes, holds place) :
    ∀ error ∈ resolved.errors, error.diagnostic.AllPlaces holds := by
  obtain ⟨⟨results, after⟩, walked, rfl⟩ := Except.bind_eq_ok run
  have keeps : KeepsPlaces holds (do
        let files ← registered.files.mapM Resolving.file
        Resolving.finish
        return files) fun results =>
      ∀ result ∈ results, ∀ error ∈ result.2, error.diagnostic.AllPlaces holds := by
    apply KeepsPlaces.bind (.mapM fun nodes member => keepsPlaces_file (known nodes member))
    intro results all
    exact .bind keepsPlaces_finish fun _ _ => .pure all
  obtain ⟨_, all⟩ := keeps (.start registered.table) ⟨table, List.forall_mem_nil _⟩ _ _ walked
  intro error member
  obtain ⟨result, inside, own⟩ := List.mem_flatMap.mp member
  exact all result inside error own

end Trees

end Cadence
