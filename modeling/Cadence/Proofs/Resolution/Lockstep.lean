import Cadence.Proofs.Resolution.Tracking
import Cadence.Resolution.Tree

/-!
# The walk over a tree follows its registration

A walk that is on track at some place, with a tree whose declarations are the next ones there, walks
over the tree without a fault and is on track behind it. The tree still makes the same
declarations, and all names in it have the symbols that they denote.
-/
namespace Cadence

open Resolving
open Source (Span)

variable {table : SymbolTable} {place : Place} {walk middle after : Walk}

/-- A walk is on track at a place. -/
structure Walk.StandsAt (walk : Walk) (table : SymbolTable) (place : Place) : Prop where
  inside : place.IsIn table
  tracks : walk.Tracks table place.cursors

theorem Walk.StandsAt.sees (stands : walk.StandsAt table place) :
    table.Sees place.cursors place.environment :=
  stands.inside.sees_cursors

/-- What a walk finds in front of a part of a tree, told by what the part declares, what is asked of
its types, and the names in it. -/
structure Walk.Awaits (walk : Walk) (table : SymbolTable) (place : Place)
    (declared : List Declaration) (types : Prop) (sightings : List Sighting) : Prop where
  stands : walk.StandsAt table place
  fits : place.Fits declared
  types : types
  isOpen : ∀ sighting ∈ sightings, sighting.IsOpen

/-- What a walk leaves behind a part of a tree that declared something before and still does. -/
structure Walk.Leaves (walk : Walk) (table : SymbolTable) (place : Place)
    (before declared : List Declaration) (types : Prop) (sightings : List Sighting) : Prop where
  stands : walk.StandsAt table (place.declare before)
  declared_eq : declared = before
  types : types
  right : ∀ sighting ∈ sightings, sighting.IsRight

section Sequence

variable {first second first' second' : List Declaration} {types types' further : Prop}
  {here there here' : List Sighting}

theorem Walk.Awaits.left
    (awaits : walk.Awaits table place (first ++ second) (types ∧ further) (here ++ there)) :
    walk.Awaits table place first types here where
  stands := awaits.stands
  fits := awaits.fits.of_append.1
  types := awaits.types.1
  isOpen := (List.forall_mem_append.mp awaits.isOpen).1

/-- Behind the first of two parts, the second one is next. -/
theorem Walk.Leaves.awaits (leaves : middle.Leaves table place first first' types' here')
    (awaits : walk.Awaits table place (first ++ second) (types ∧ further) (here ++ there)) :
    middle.Awaits table (place.declare first) second further there where
  stands := leaves.stands
  fits := awaits.fits.of_append.2
  types := awaits.types.2
  isOpen := (List.forall_mem_append.mp awaits.isOpen).2

theorem Walk.Leaves.append (leaves : middle.Leaves table place first first' types here)
    (behind : after.Leaves table (place.declare first) second second' further there) :
    after.Leaves table place (first ++ second) (first' ++ second') (types ∧ further)
      (here ++ there) where
  stands := by rw [Place.declare_append]; exact behind.stands
  declared_eq := by rw [leaves.declared_eq, behind.declared_eq]
  types := ⟨leaves.types, behind.types⟩
  right := List.forall_mem_append.mpr ⟨leaves.right, behind.right⟩

/-- A place behind a part is surrounded by what the part then declares. -/
theorem Walk.Leaves.environment_eq (leaves : middle.Leaves table place first first' types' here) :
    (place.declare first).environment = place.environment.declare first' := by
  rw [Place.environment_declare, leaves.declared_eq]

/-- Two parts that are walked over one after the other, and what is made of them. -/
theorem Resolving.Succeeds.sequence {α β γ : Type} {step : Resolving α} {next : Resolving β}
    {last : α → β → Resolving γ} {final : γ → Walk → Prop} {part : β} {first' : α → List Declaration}
    {second' : β → List Declaration} {types' : α → Prop} {further' : β → Prop}
    {here' : α → List Sighting} (there : Environment → β → List Sighting)
    (left : walk.Awaits table place first types here → step.Succeeds walk fun result middle =>
      middle.Leaves table place first (first' result) (types' result) (here' result))
    (right : ∀ {middle : Walk}, middle.Awaits table (place.declare first) second further
        (there (place.declare first).environment part) →
      next.Succeeds middle fun result after => after.Leaves table (place.declare first) second
        (second' result) (further' result) (there (place.declare first).environment result))
    (awaits : walk.Awaits table place (first ++ second) (types ∧ further)
      (here ++ there (place.environment.declare first) part))
    (both : ∀ (result : α) (other : β) (after : Walk),
      after.Leaves table place (first ++ second) (first' result ++ second' other)
        (types' result ∧ further' other)
        (here' result ++ there (place.environment.declare (first' result)) other) →
      (last result other).Succeeds after final) :
    (step >>= fun result => next >>= last result).Succeeds walk final := by
  rw [← Place.environment_declare] at awaits
  refine (left awaits.left).bind fun result middle leaves => ?_
  refine (right (leaves.awaits awaits)).bind fun other after behind => ?_
  -- what the first part declares now is what it declared before
  rw [leaves.environment_eq] at behind
  exact both result other after (leaves.append behind)

/-- The same for three parts. -/
theorem Resolving.Succeeds.sequence_three {α β γ δ : Type} {step : Resolving α} {next : Resolving β}
    {further : Resolving γ} {last : α → β → γ → Resolving δ} {final : δ → Walk → Prop} {part : β}
    {other : γ} {third : List Declaration} {first' : α → List Declaration}
    {second' : β → List Declaration} {third' : γ → List Declaration} {holds holds' holds'' : Prop}
    {types : α → Prop} {types' : β → Prop} {types'' : γ → Prop} {here' : α → List Sighting}
    (there : Environment → β → List Sighting) (behind : Environment → γ → List Sighting)
    (left : walk.Awaits table place first holds here → step.Succeeds walk fun result middle =>
      middle.Leaves table place first (first' result) (types result) (here' result))
    (middle : ∀ {walk : Walk} {place : Place},
      walk.Awaits table place second holds' (there place.environment part) →
      next.Succeeds walk fun result after => after.Leaves table place second (second' result)
        (types' result) (there place.environment result))
    (right : ∀ {walk : Walk} {place : Place},
      walk.Awaits table place third holds'' (behind place.environment other) →
      further.Succeeds walk fun result after => after.Leaves table place third (third' result)
        (types'' result) (behind place.environment result))
    (awaits : walk.Awaits table place (first ++ (second ++ third)) (holds ∧ holds' ∧ holds'')
      (here ++ (there (place.environment.declare first) part ++
        behind ((place.environment.declare first).declare second) other)))
    (all : ∀ (result : α) (consequent : β) (alternative : γ) (after : Walk),
      after.Leaves table place (first ++ (second ++ third))
        (first' result ++ (second' consequent ++ third' alternative))
        (types result ∧ types' consequent ∧ types'' alternative)
        (here' result ++ (there (place.environment.declare (first' result)) consequent ++
          behind ((place.environment.declare (first' result)).declare (second' consequent))
            alternative)) →
      (last result consequent alternative).Succeeds after final) :
    (step >>= fun result => next >>= fun consequent => further >>=
      last result consequent).Succeeds walk final := by
  rw [← Place.environment_declare] at awaits
  refine (left awaits.left).bind fun result between leaves => ?_
  -- behind the first part, what is left are two parts in sequence
  refine .sequence behind middle right (leaves.awaits awaits) fun consequent alternative after rest => ?_
  rw [leaves.environment_eq] at rest
  exact all result consequent alternative after (leaves.append rest)

end Sequence

/-- A part of a tree without names, declarations and types is passed as it is. -/
theorem Walk.StandsAt.leaves_nothing (stands : walk.StandsAt table place) {types : Prop}
    (known : types) : walk.Leaves table place [] [] types [] where
  stands := by rwa [Place.declare_nil]
  declared_eq := rfl
  types := known
  right := by simp

namespace Resolving

/-- A step that does not meet symbols stays at its place. -/
theorem Succeeds.stays {α : Type} {step : Resolving α} {property : α → Prop}
    (stands : walk.StandsAt table place)
    (succeeds : step.Succeeds walk fun result after =>
      after.Tracks table place.cursors ∧ property result) :
    step.Succeeds walk fun result after => after.StandsAt table place ∧ property result :=
  succeeds.mono fun _ _ ⟨tracks, known⟩ => ⟨⟨stands.inside, tracks⟩, known⟩

theorem referenceType_succeeds {around : Environment} (stands : walk.StandsAt table place)
    {name : String} {found : Option SymbolIndex}
    (denotes : table.Matches (around.denoted? name) found) :
    (referenceType found).Succeeds walk fun result after =>
      after.StandsAt table place ∧ ∀ type ∈ result, table.BindsIn type := by
  cases found with
  | none => exact .pure ⟨stands, by simp⟩
  | some index =>
    -- what was found is the symbol of a declaration
    have present : index.value < table.size := by
      generalize around.denoted? name = declaration at denotes
      cases denotes with
      | found own => exact own.lt_size
    apply (symbol_succeeds stands.tracks present).bind
    rintro symbol after ⟨tracks, _, known⟩
    dsimp only
    split
    next =>
      exact (defer_succeeds tracks).bind fun _ _ tracks => .pure ⟨⟨stands.inside, tracks⟩, known⟩
    next => exact .pure ⟨⟨stands.inside, tracks⟩, known⟩

end Resolving

section Types

theorem Expr.AllTypes.type {holds : Ty → Prop} {expression : Expr}
    (types : expression.AllTypes holds) : ∀ type ∈ expression.type, holds type := by
  obtain ⟨info, form⟩ := expression
  exact types.1

theorem bindsIn_result {type : Option Ty} (binds : ∀ found ∈ type, table.BindsIn found) :
    ∀ found ∈ type.bind Ty.result?, table.BindsIn found := by
  intro found known
  obtain ⟨callee, calleeType, result⟩ := Option.bind_eq_some_iff.mp known
  cases callee with
  | procedure parameters isVariadic result' =>
    obtain rfl := Option.some.inj result
    exact (binds _ calleeType).2
  | builtin | pointer | struct | named => cases result

theorem bindsIn_target {type : Option Ty} (binds : ∀ found ∈ type, table.BindsIn found) :
    ∀ found ∈ type.bind Ty.target?, table.BindsIn found := by
  intro found known
  obtain ⟨pointer, pointerType, target⟩ := Option.bind_eq_some_iff.mp known
  cases pointer with
  | pointer target' =>
    obtain rfl := Option.some.inj target
    exact binds (.pointer target') pointerType
  | builtin | procedure | struct | named => cases target

theorem bindsIn_binary (operator : Operator) {type : Option Ty}
    (binds : ∀ found ∈ type, table.BindsIn found) :
    ∀ found ∈ operator.binaryType type, table.BindsIn found := by
  unfold Operator.binaryType
  split
  · rintro _ ⟨⟩
    trivial
  · rintro _ ⟨⟩
    trivial
  · exact binds

theorem bindsIn_unary (operator : Operator) {type : Option Ty}
    (binds : ∀ found ∈ type, table.BindsIn found) :
    ∀ found ∈ operator.unaryType type, table.BindsIn found := by
  unfold Operator.unaryType
  split
  · rintro _ ⟨⟩
    trivial
  · intro found known
    obtain ⟨target, targetType, rfl⟩ := Option.map_eq_some_iff.mp known
    exact binds target targetType
  · exact bindsIn_target binds
  · exact binds

theorem bindsIn_sequence {nodes : List Node} (types : Node.AllTypesAll table.BindsIn nodes) :
    ∀ found ∈ Node.sequenceType nodes, table.BindsIn found := by
  rw [Node.allTypesAll_iff] at types
  unfold Node.sequenceType
  split
  next last known => exact (types _ (List.mem_of_getLast? known)).type
  next => simp

end Types

namespace Resolving

variable {α : Type} {heading : Heading} {content rest : List Declaration}

/-- The next declaration is met by its own symbol. -/
theorem meet_next (stands : walk.StandsAt table place) {next : Declaration}
    (fits : place.Fits (next :: rest)) :
    ∃ index, next.heading.IsAt table place.innermost.scope index ∧
      (meet next.symbol?).Succeeds walk fun found after => found = index ∧
        after.Tracks table (place.innermost.cursor.next :: place.outerCursors) := by
  have tracks := stands.tracks
  rw [place.cursors_eq] at tracks
  have placed := stands.inside.placed_next fits
  cases placed with
  | simple own =>
    exact ⟨_, own, meet_succeeds tracks own.1
      (stands.inside.child_next fits (entries_simple own.1))⟩
  -- the own symbol comes first in both cases
  | withBody own =>
    exact ⟨_, own, meet_succeeds tracks own.1
      (stands.inside.child_next fits (entries_withBody own.1))⟩

/-- Behind the symbol of a declaration without a body, the declaration is made. -/
theorem stands_simple (stands : walk.StandsAt table place)
    (fits : place.Fits (.simple heading :: rest)) {index : SymbolIndex}
    (own : heading.IsAt table place.innermost.scope index)
    (tracks : after.Tracks table (place.innermost.cursor.next :: place.outerCursors)) :
    after.StandsAt table (place.declare [.simple heading]) := by
  have whole : place.Fits ([.simple heading] ++ rest) := fits
  refine ⟨stands.inside.declare whole.of_append.1, ?_⟩
  rwa [place.cursors_declare_simple own.1]

/-- The members of a body are met one after the other. -/
theorem meetMembers_succeeds {members : List Member} (stands : walk.StandsAt table place)
    (fits : place.Fits (Member.declarations members ++ rest))
    (binds : ∀ member ∈ members, table.BindsIn member.type.value) :
    (members.forM meetMember).Succeeds walk fun _ after =>
      after.StandsAt table (place.declare (Member.declarations members)) := by
  induction members generalizing walk place with
  | nil =>
    refine .pure ?_
    rwa [Member.declarations, List.map_nil, Place.declare_nil]
  | cons first others ih =>
    -- each member is declared before the next one is met, which carries the induction on the
    -- members
    have whole : place.Fits ([.simple first.heading] ++ (Member.declarations others ++ rest)) := fits
    simp only [List.mem_cons, forall_eq_or_imp] at binds
    obtain ⟨index, own, meets⟩ := meet_next stands fits
    have step : (meetMember first).Succeeds walk fun _ after =>
        after.StandsAt table (place.declare [.simple first.heading]) := by
      apply meets.bind
      rintro found met ⟨rfl, tracks⟩
      have known : ∀ type ∈ some first.type.value, table.BindsIn type := by simpa using binds.1
      exact (setType_succeeds tracks own.lt_size known).mono fun _ _ tracks =>
        stands_simple stands fits own tracks
    change (meetMember first >>= fun _ => others.forM meetMember).Succeeds walk _
    refine step.bind fun _ met stands => (ih stands whole.of_append.2 binds.2).mono ?_
    intro _ after stands
    rwa [← Place.declare_append] at stands

/-- The body of a declaration is walked over from its start to its end. -/
theorem body_succeeds (inside : place.IsIn table)
    (fits : place.Fits (.withBody heading content :: rest)) {index : SymbolIndex}
    (own : heading.IsAt table place.innermost.scope index)
    (tracks : walk.Tracks table (place.innermost.cursor.next :: place.outerCursors))
    {body : Resolving α} {property : α → Prop}
    (follows : ∀ start : Walk,
      start.StandsAt table ((place.declare [.withBody heading content]).enter index.next content) →
      body.Succeeds start fun result after => property result ∧ after.StandsAt table
        (((place.declare [.withBody heading content]).enter index.next content).declare content)) :
    (withinBody index body).Succeeds walk fun result after =>
      property result ∧ after.StandsAt table (place.declare [.withBody heading content]) := by
  obtain ⟨hasBody, declared, entered⟩ := inside.body_next fits own
  have cursors : (place.declare [.withBody heading content]).cursors = _ :=
    place.cursors_declare_withBody own.1
  refine (withinBody_succeeds tracks (inside.bodyScope?_next fits own hasBody)
    (inside.child_body fits own.1) fun start tracks => ?_).mono fun result after ⟨known, tracks⟩ =>
      ⟨known, declared, by rwa [cursors]⟩
  -- the body starts in a new frame, and the cursor of the old one has passed its scope already
  refine (follows start ⟨entered, ?_⟩).mono fun result after ⟨known, stands⟩ => ⟨known, ?_⟩
  · rwa [Place.cursors_enter, cursors]
  · have tracks := stands.tracks
    rw [Place.cursors_declare] at tracks
    rw [hasBody.children, ← cursors]
    exact tracks

/-- The symbol that a name denotes is the right one to record. -/
theorem isRight_reference {around : Environment} {name : Identifier} {found : Option SymbolIndex}
    (denotes : table.Matches (around.denoted? name.value) found) :
    (Sighting.reference around name found).IsRight := by
  simp only [Sighting.IsRight]
  cases denoted : around.denoted? name.value with
  | none =>
    rw [denoted] at denotes
    cases denotes
    rfl
  | some declaration =>
    rw [denoted] at denotes
    obtain _ | own := denotes
    exact ⟨rfl, own.1.symm⟩

/-- The types in the head of a procedure are found as soon as the procedure itself is made. -/
theorem procedureHead_succeeds {head : ProcedureHead} {next : Declaration}
    (stands : walk.StandsAt table place) (fits : place.Fits [next])
    (heading_eq : next.heading = head.heading) (types : head.AllTypes table.BindsIn)
    (isOpen : ∀ sighting ∈ head.sightings (place.environment.declare [next]), sighting.IsOpen) :
    (procedureHead head).Succeeds walk fun result after =>
      after.Tracks table (place.innermost.cursor.next :: place.outerCursors) ∧
        next.heading.IsAt table place.innermost.scope result.1 ∧
          result.2.heading = head.heading ∧
            Member.declarations result.2.parameters = Member.declarations head.parameters ∧
              result.2.AllTypes table.BindsIn ∧
                ∀ sighting ∈ result.2.sightings (place.environment.declare [next]),
                  sighting.IsRight := by
  obtain ⟨index, own, meets⟩ := meet_next stands fits
  -- the types see the procedure itself, which has been met, but not its parameters
  have sees := stands.inside.sees_next fits
  rw [ProcedureHead.sightings, List.forall_mem_append, Member.forall_sightings,
    forall_annotationSightings] at isOpen
  rw [Declaration.symbol?, heading_eq] at meets
  apply meets.bind
  rintro owner met ⟨rfl, tracks⟩
  have parametersResolvable := fun member present =>
    Ty.IsResolvable.mk (types.1 member present) (isOpen.1 member present)
  apply (memberTypes_succeeds sees parametersResolvable tracks).bind
  rintro parameters after ⟨tracks, declared, parametersResolved⟩
  have resultResolvable := fun result present =>
    Ty.IsResolvable.mk (types.2 result present) (isOpen.2 result present)
  apply (annotatedOption_succeeds sees resultResolvable tracks).bind
  rintro result after ⟨tracks, resultResolved⟩
  -- the type that is stored for the procedure is made of these types
  have resolvedTypes : ({ head with parameters, result } : ProcedureHead).AllTypes table.BindsIn :=
    ⟨fun member present => (parametersResolved member present).binds,
      fun result present => (resultResolved result present).binds⟩
  have known : ∀ type ∈ some ({ head with parameters, result } : ProcedureHead).type,
      table.BindsIn type := by
    rintro _ ⟨⟩
    exact ProcedureHead.allNames_type resolvedTypes
  refine (setType_succeeds tracks own.lt_size known).bind fun _ after tracks => .pure ?_
  refine ⟨tracks, own, rfl, declared, resolvedTypes, ?_⟩
  rw [ProcedureHead.sightings, List.forall_mem_append, Member.forall_sightings,
    forall_annotationSightings]
  exact ⟨fun member present => (parametersResolved member present).right,
    fun result present => (resultResolved result present).right⟩

end Resolving

/-- The expression comes out with the type that is found for its form. -/
theorem Walk.Leaves.typed {form : Form} {before : List Declaration} {span : Span}
    {required tail : Bool} {type : Option Ty}
    (leaves : after.Leaves table place before form.declarations (form.AllTypes table.BindsIn)
      (form.sightings place.environment))
    (binds : ∀ found ∈ type, table.BindsIn found) :
    after.Leaves table place before (Expr.mk ⟨span, type, required, tail⟩ form).declarations
      ((Expr.mk ⟨span, type, required, tail⟩ form).AllTypes table.BindsIn)
      ((Expr.mk ⟨span, type, required, tail⟩ form).sightings place.environment) :=
  { leaves with types := ⟨binds, leaves.types⟩ }

/-- In the body of a procedure, the parameters are met in front of what lies within the body. -/
theorem Resolving.content_succeeds {parameters : List Member} {body : Expr} {scope : SymbolIndex}
    (resolves : ∀ {walk : Walk} {place : Place},
      walk.Awaits table place body.declarations (body.AllTypes table.BindsIn)
        (body.sightings place.environment) →
      body.resolve.Succeeds walk fun result after =>
        after.Leaves table place body.declarations result.declarations
          (result.AllTypes table.BindsIn) (result.sightings place.environment))
    (stands : walk.StandsAt table
      (place.enter scope (Member.declarations parameters ++ body.declarations)))
    (binds : ∀ parameter ∈ parameters, table.BindsIn parameter.type.value)
    (types : body.AllTypes table.BindsIn)
    (isOpen : ∀ sighting ∈ body.sightings (place.environment.enter (Member.declarations parameters)),
      sighting.IsOpen) :
    Succeeds (do parameters.forM meetMember; return some (← body.resolve)) walk fun result after =>
      (∃ body', result = some body' ∧ body'.declarations = body.declarations ∧
        body'.AllTypes table.BindsIn ∧
          ∀ sighting ∈ body'.sightings (place.environment.enter (Member.declarations parameters)),
            sighting.IsRight) ∧
      after.StandsAt table ((place.enter scope (Member.declarations parameters ++
        body.declarations)).declare (Member.declarations parameters ++ body.declarations)) := by
  have fits : (place.enter scope (Member.declarations parameters ++ body.declarations)).Fits
      (Member.declarations parameters ++ body.declarations) := List.prefix_refl _
  refine (meetMembers_succeeds stands fits binds).bind fun _ met stands => ?_
  refine (resolves ⟨stands, fits.of_append.2, types, isOpen⟩).bind fun body' after leaves => .pure ?_
  refine ⟨⟨body', rfl, leaves.declared_eq, leaves.types, leaves.right⟩, ?_⟩
  rw [Place.declare_append]
  exact leaves.stands

/-- A procedure that is defined here is met, and its body is walked over in a scope of its own. -/
theorem Node.procedure_leaves {span : Span} {head : ProcedureHead} {body : Expr} {walk : Walk}
    {place : Place}
    (resolves : ∀ {walk : Walk} {place : Place},
      walk.Awaits table place body.declarations (body.AllTypes table.BindsIn)
        (body.sightings place.environment) →
      body.resolve.Succeeds walk fun result after =>
        after.Leaves table place body.declarations result.declarations
          (result.AllTypes table.BindsIn) (result.sightings place.environment))
    (awaits : walk.Awaits table place (Node.procedure span head (some body)).declarations
      ((Node.procedure span head (some body)).AllTypes table.BindsIn)
      ((Node.procedure span head (some body)).sightings place.environment)) :
    (Node.procedure span head (some body)).resolve.Succeeds walk fun result after =>
      after.Leaves table place (Node.procedure span head (some body)).declarations
        result.declarations (result.AllTypes table.BindsIn)
        (result.sightings place.environment) := by
  have opens := List.forall_mem_append.mp awaits.isOpen
  apply (procedureHead_succeeds awaits.stands awaits.fits rfl awaits.types.1 opens.1).bind
  rintro ⟨owner, head'⟩ after ⟨tracks, own, heading, declared, types, right⟩
  let parameters := Member.declarations head.parameters
  let next := place.declare [.withBody head.heading (parameters ++ body.declarations)]
  have inner (start : Walk)
      (stands : start.StandsAt table (next.enter owner.next (parameters ++ body.declarations))) := by
    have isOpen : ∀ sighting ∈ body.sightings (next.environment.enter parameters),
        sighting.IsOpen := by
      rw [Place.environment_declare]
      exact opens.2
    -- what the types of the parameters are does not matter to what they declare
    rw [show parameters = Member.declarations head'.parameters from declared.symm] at stands isOpen
    exact content_succeeds resolves stands types.1 awaits.types.2 isOpen
  rw [declared] at inner
  apply (body_succeeds awaits.stands.inside awaits.fits own tracks inner).bind
  rintro _ after ⟨⟨body', rfl, bodyDeclared, bodyTypes, bodyRight⟩, stands⟩
  refine .pure ⟨stands, ?_, ⟨types, bodyTypes⟩, ?_⟩
  · rw [Node.declarations, heading, declared, bodyDeclared]
    rfl
  · rw [Node.sightings, heading, declared, bodyDeclared, List.forall_mem_append]
    refine ⟨right, ?_⟩
    rwa [Place.environment_declare] at bodyRight

/-- A struct is met in front of its fields, and its type is stored behind them. -/
theorem Node.struct_leaves {span : Span} {declared : Struct} {walk : Walk} {place : Place}
    (awaits : walk.Awaits table place (Node.struct span declared).declarations
      ((Node.struct span declared).AllTypes table.BindsIn)
      ((Node.struct span declared).sightings place.environment)) :
    (Node.struct span declared).resolve.Succeeds walk fun result after =>
      after.Leaves table place (Node.struct span declared).declarations result.declarations
        (result.AllTypes table.BindsIn) (result.sightings place.environment) := by
  obtain ⟨index, own, meets⟩ := meet_next awaits.stands awaits.fits
  -- as in the head of a procedure, the struct is seen and its fields are not
  have sees := awaits.stands.inside.sees_next awaits.fits
  have isOpen := Member.forall_sightings.mp awaits.isOpen
  apply meets.bind
  rintro owner met ⟨rfl, tracks⟩
  have resolvable := fun member present =>
    Ty.IsResolvable.mk (awaits.types member present) (isOpen member present)
  apply (memberTypes_succeeds sees resolvable tracks).bind
  rintro fields after ⟨tracks, fieldsDeclared, resolved⟩
  have types : ({ declared with fields } : Struct).AllTypes table.BindsIn :=
    fun field present => (resolved field present).binds
  let content := Member.declarations declared.fields
  let next := place.declare [.withBody declared.heading content]
  have inner (start : Walk) (stands : start.StandsAt table (next.enter owner.next content)) :
      (fields.forM meetMember).Succeeds start fun _ after => True ∧
        after.StandsAt table ((next.enter owner.next content).declare content) := by
    -- the fields are all there is in the scope of a struct
    have fits : (next.enter owner.next content).Fits (Member.declarations fields ++ []) := by
      rw [fieldsDeclared, List.append_nil]
      exact List.prefix_refl _
    have members := meetMembers_succeeds stands fits types
    rw [fieldsDeclared] at members
    exact members.mono fun _ _ stands => ⟨trivial, stands⟩
  apply (body_succeeds awaits.stands.inside awaits.fits own tracks inner).bind
  rintro _ after ⟨_, stands⟩
  have known : ∀ type ∈ some ({ declared with fields } : Struct).type, table.BindsIn type := by
    rintro _ ⟨⟩
    exact Struct.allNames_type types
  refine (setType_succeeds stands.tracks own.lt_size known).bind fun _ after tracks => .pure ?_
  refine ⟨⟨stands.inside, tracks⟩, ?_, types, ?_⟩
  · rw [Node.declarations, fieldsDeclared]
    rfl
  · rw [Node.sightings, fieldsDeclared, Member.forall_sightings]
    exact fun field present => (resolved field present).right

mutual

theorem Node.resolve_leaves {node : Node} {walk : Walk} {place : Place}
    (awaits : walk.Awaits table place node.declarations (node.AllTypes table.BindsIn)
      (node.sightings place.environment)) :
    node.resolve.Succeeds walk fun result after =>
      after.Leaves table place node.declarations result.declarations
        (result.AllTypes table.BindsIn) (result.sightings place.environment) := by
  cases node with
  | procedure span head body =>
    cases body with
    | none =>
      apply (procedureHead_succeeds awaits.stands awaits.fits rfl awaits.types.1 awaits.isOpen).bind
      rintro ⟨owner, head'⟩ after ⟨tracks, own, heading, declared, types, right⟩
      change (pure (Node.procedure span head' none) : Resolving Node).Succeeds after _
      refine .pure ⟨stands_simple awaits.stands awaits.fits own tracks, ?_, ⟨types, trivial⟩, ?_⟩
      · rw [Node.declarations, heading]
        rfl
      · rw [Node.sightings, heading]
        exact right
    | some body => exact Node.procedure_leaves Expr.resolve_leaves awaits
  | struct span declared => exact Node.struct_leaves awaits
  | binding span head initializer =>
    have opens := List.forall_mem_append.mp awaits.isOpen
    have isOpen := forall_annotationSightings.mp opens.1
    have resolvable := fun annotated present =>
      Ty.IsResolvable.mk (awaits.types.1 annotated present) (isOpen annotated present)
    apply (annotatedOption_succeeds awaits.stands.sees resolvable awaits.stands.tracks).bind
    rintro type after ⟨tracks, resolved⟩
    have fits := awaits.fits.of_append
    have whole : after.Awaits table place (Expr.declarationsOption initializer)
      (Expr.AllTypesOption table.BindsIn initializer)
      (Expr.sightingsOption place.environment initializer) :=
        ⟨⟨awaits.stands.inside, tracks⟩, fits.1, awaits.types.2, opens.2⟩
    -- the initial value does not see the binding, which is met only behind it
    refine (Expr.resolveOption_leaves whole).bind fun initializer' after leaves => ?_
    obtain ⟨index, own, meets⟩ := meet_next leaves.stands fits.2
    apply meets.bind
    rintro _ met ⟨rfl, tracks⟩
    -- the type is the one that is written down, else that of the initial value
    have known : ∀ found ∈ (match type with
        | some type => some type.value
        | none => initializer'.bind Expr.type), table.BindsIn found := by
      split
      next annotated =>
        rintro _ ⟨⟩
        exact (resolved annotated rfl).binds
      next =>
        intro found present
        obtain ⟨value, rfl, valueType⟩ := Option.bind_eq_some_iff.mp present
        exact leaves.types.type found valueType
    refine (setType_succeeds tracks own.lt_size known).bind fun _ after tracks => .pure ?_
    refine ⟨?_, ?_, ⟨fun annotated present => (resolved annotated present).binds, leaves.types⟩, ?_⟩
    · rw [Node.declarations, Place.declare_append]
      exact stands_simple leaves.stands fits.2 own tracks
    · rw [Node.declarations, leaves.declared_eq]
      rfl
    · rw [Node.sightings, List.forall_mem_append, forall_annotationSightings]
      exact ⟨fun annotated present => (resolved annotated present).right, leaves.right⟩
  | load span path => exact .pure (awaits.stands.leaves_nothing trivial)
  | expression inner =>
    exact .bind (Expr.resolve_leaves awaits) fun inner after leaves => .pure leaves
  | assignment span target operator value =>
    exact .sequence Expr.sightings Expr.resolve_leaves Expr.resolve_leaves awaits
      fun target value after leaves => .pure leaves

theorem Expr.resolve_leaves {expression : Expr} {walk : Walk} {place : Place}
    (awaits : walk.Awaits table place expression.declarations (expression.AllTypes table.BindsIn)
      (expression.sightings place.environment)) :
    expression.resolve.Succeeds walk fun result after =>
      after.Leaves table place expression.declarations result.declarations
        (result.AllTypes table.BindsIn) (result.sightings place.environment) := by
  obtain ⟨info, form⟩ := expression
  have whole : walk.Awaits table place form.declarations (form.AllTypes table.BindsIn)
      (form.sightings place.environment) := { awaits with types := awaits.types.2 }
  exact (Form.resolve_leaves whole awaits.types.1).bind fun result after ⟨leaves, binds⟩ =>
    .pure (leaves.typed binds)

theorem Form.resolve_leaves {form : Form} {walk : Walk} {place : Place}
    (awaits : walk.Awaits table place form.declarations (form.AllTypes table.BindsIn)
      (form.sightings place.environment))
    {known : Option Ty} (binds : ∀ type ∈ known, table.BindsIn type) :
    (form.resolve known).Succeeds walk fun result after =>
      after.Leaves table place form.declarations result.1.declarations
        (result.1.AllTypes table.BindsIn) (result.1.sightings place.environment) ∧
          ∀ type ∈ result.2, table.BindsIn type := by
  -- the type of a form is either known for its parts, or it is what was looked up on the way
  cases form with
  | reference binder symbol =>
    apply (reference_succeeds awaits.stands.tracks awaits.stands.sees binder).bind
    rintro found after ⟨tracks, denotes⟩
    have stands : after.StandsAt table place := ⟨awaits.stands.inside, tracks⟩
    apply (referenceType_succeeds stands denotes).bind
    rintro type after ⟨stands, bound⟩
    refine .pure ⟨⟨by rwa [Form.declarations, Place.declare_nil], rfl, trivial, ?_⟩, bound⟩
    exact List.forall_mem_singleton.mpr (isRight_reference denotes)
  | field target name =>
    refine .bind (Expr.resolve_leaves awaits) fun target' after leaves => ?_
    apply (fieldType_succeeds leaves.stands.tracks leaves.stands.sees leaves.types.type name).bind
    rintro type after ⟨tracks, bound⟩
    exact .pure ⟨{ leaves with stands := ⟨leaves.stands.inside, tracks⟩ }, bound⟩
  | call callee arguments =>
    exact .sequence Expr.sightingsAll Expr.resolve_leaves Expr.resolveAll_leaves awaits
      fun callee arguments after leaves => .pure ⟨leaves, bindsIn_result leaves.types.1.type⟩
  | binary left operator right =>
    exact .sequence Expr.sightings Expr.resolve_leaves Expr.resolve_leaves awaits
      fun left right after leaves => .pure ⟨leaves, bindsIn_binary _ leaves.types.1.type⟩
  | unary operator operand =>
    exact .bind (Expr.resolve_leaves awaits) fun operand' after leaves =>
      .pure ⟨leaves, bindsIn_unary _ leaves.types.type⟩
  | cast operand type =>
    have opens := List.forall_mem_append.mp awaits.isOpen
    have whole : walk.Awaits table place operand.declarations (operand.AllTypes table.BindsIn)
      (operand.sightings place.environment) :=
        { awaits with types := awaits.types.1, isOpen := opens.1 }
    refine (Expr.resolve_leaves whole).bind fun operand' after leaves => ?_
    -- the type stands behind the operand, and sees what is declared in it
    have sees := leaves.stands.sees
    rw [Place.environment_declare] at sees
    refine (annotated_succeeds sees ⟨awaits.types.2, opens.2⟩ leaves.stands.tracks).bind ?_
    rintro type' after ⟨tracks, resolved⟩
    refine .pure ⟨⟨⟨leaves.stands.inside, tracks⟩, leaves.declared_eq,
      ⟨leaves.types, resolved.binds⟩, ?_⟩, by simpa using resolved.binds⟩
    rw [Form.sightings, List.forall_mem_append, leaves.declared_eq]
    exact ⟨leaves.right, resolved.right⟩
  | block nodes =>
    exact .bind (Node.resolveAll_leaves awaits) fun nodes' after leaves =>
      .pure ⟨leaves, bindsIn_sequence leaves.types⟩
  | conditional isNegated condition consequent alternative =>
    refine .sequence_three Expr.sightings Expr.sightingsOption Expr.resolve_leaves Expr.resolve_leaves
      Expr.resolveOption_leaves awaits fun condition consequent alternative after leaves => ?_
    refine .pure ⟨leaves, fun type known => ?_⟩
    -- with an alternative, the type is that of the consequent
    obtain ⟨_, _, found⟩ := Option.bind_eq_some_iff.mp known
    exact leaves.types.2.1.type type found
  | loop isNegated condition body alternative =>
    exact .sequence_three Expr.sightings Expr.sightingsOption Expr.resolve_leaves Expr.resolve_leaves
      Expr.resolveOption_leaves awaits fun condition body alternative after leaves =>
        .pure ⟨leaves, by simp⟩
  | delete operand =>
    exact .bind (Expr.resolve_leaves awaits) fun operand' after leaves => .pure ⟨leaves, by simp⟩
  | defer node =>
    exact .bind (Node.resolve_leaves awaits) fun node' after leaves => .pure ⟨leaves, by simp⟩
  | new type =>
    refine (annotated_succeeds awaits.stands.sees ⟨awaits.types, awaits.isOpen⟩
      awaits.stands.tracks).bind ?_
    rintro type' after ⟨tracks, resolved⟩
    have stands : after.StandsAt table (place.declare []) := by
      rw [Place.declare_nil]
      exact ⟨awaits.stands.inside, tracks⟩
    refine .pure ⟨⟨stands, rfl, resolved.binds, resolved.right⟩, ?_⟩
    rintro _ ⟨⟩
    exact resolved.binds
  | bool | integer | real | text | character | uninitialized =>
    exact .pure ⟨awaits.stands.leaves_nothing trivial, binds⟩

theorem Expr.resolveOption_leaves {expression : Option Expr} {walk : Walk} {place : Place}
    (awaits : walk.Awaits table place (Expr.declarationsOption expression)
      (Expr.AllTypesOption table.BindsIn expression)
      (Expr.sightingsOption place.environment expression)) :
    (Expr.resolveOption expression).Succeeds walk fun result after =>
      after.Leaves table place (Expr.declarationsOption expression) (Expr.declarationsOption result)
        (Expr.AllTypesOption table.BindsIn result)
        (Expr.sightingsOption place.environment result) := by
  cases expression with
  | none => exact .pure (awaits.stands.leaves_nothing trivial)
  | some inner =>
    exact .bind (Expr.resolve_leaves awaits) fun inner after leaves => .pure leaves

theorem Expr.resolveAll_leaves {expressions : List Expr} {walk : Walk} {place : Place}
    (awaits : walk.Awaits table place (Expr.declarationsAll expressions)
      (Expr.AllTypesAll table.BindsIn expressions)
      (Expr.sightingsAll place.environment expressions)) :
    (Expr.resolveAll expressions).Succeeds walk fun result after =>
      after.Leaves table place (Expr.declarationsAll expressions) (Expr.declarationsAll result)
        (Expr.AllTypesAll table.BindsIn result) (Expr.sightingsAll place.environment result) := by
  cases expressions with
  | nil => exact .pure (awaits.stands.leaves_nothing trivial)
  | cons expression rest =>
    exact .sequence Expr.sightingsAll Expr.resolve_leaves Expr.resolveAll_leaves awaits
      fun expression rest after leaves => .pure leaves

theorem Node.resolveAll_leaves {nodes : List Node} {walk : Walk} {place : Place}
    (awaits : walk.Awaits table place (Node.declarationsAll nodes)
      (Node.AllTypesAll table.BindsIn nodes) (Node.sightingsAll place.environment nodes)) :
    (Node.resolveAll nodes).Succeeds walk fun result after =>
      after.Leaves table place (Node.declarationsAll nodes) (Node.declarationsAll result)
        (Node.AllTypesAll table.BindsIn result) (Node.sightingsAll place.environment result) := by
  cases nodes with
  | nil => exact .pure (awaits.stands.leaves_nothing trivial)
  | cons node rest =>
    exact .sequence Node.sightingsAll Node.resolve_leaves Node.resolveAll_leaves awaits
      fun node rest after leaves => .pure leaves

end

end Cadence