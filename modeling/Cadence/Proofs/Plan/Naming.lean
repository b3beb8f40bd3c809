import Cadence.Proofs.Plan.Accesses
import Cadence.Proofs.Plan.Numbering
import Cadence.Proofs.Plan.Scope
import Cadence.Proofs.Plan.Scoping

/-!
# Names and fields that a plan comes across

What holds of the headings of all declarations in a plan holds of every declaration that can be referred to
in it, and every name that is in sight somewhere denotes something there. Likewise, what holds of the names
of the fields that structs are declared with holds of all fields that are found out about in a walk.
-/
namespace Cadence

open Source (Span)

/-- Something holds of the heading of each declaration in a plan that can be referred to, and something
of the name of each field that a struct is declared with. The types of literals have no fields. -/
def Plan.Names (holds : Heading → Prop) (isField : String → Prop) : Plan → Prop
  | value type => ∀ found ∈ type, found.IsPlain
  | stated _ | reference _ _ _ => True
  | .field _ target _ => target.Names holds isField
  | expression _ inner => inner.Names holds isField
  -- the parameters of a procedure without a body are not declared
  | external head => holds head.heading
  | procedure head body =>
    (holds head.heading ∧ ∀ declaration ∈ Member.declarations head.parameters, holds declaration.heading) ∧
      body.Names holds isField
  | struct declared => holds declared.heading ∧ ∀ field ∈ declared.fields, isField field.binder.value
  | binding head initial => holds head.heading ∧ initial.Names holds isField
  | combine _ first second => first.Names holds isField ∧ second.Names holds isField

/-- Something holds of all declarations that can be referred to, and those that are made next come next in
the global scope unless they are made in a body. -/
structure Environment.Expects (holds : Heading → Prop) (around : Environment) (next : List Declaration) :
    Prop where
  declared : ∀ declaration ∈ around.declarations, holds declaration.heading
  earlier : around.earlier <+: around.globals
  next : around.bodies = [] → around.earlier ++ next <+: around.globals

/-- What a name is used in. -/
def Sighting.around : Sighting → Environment
  | reference around _ _ | typeName around _ _ => around

def Sighting.name : Sighting → Identifier
  | reference _ name _ | typeName _ name _ => name

variable {holds : Heading → Prop} {isField : String → Prop}

namespace Environment

variable {around : Environment} {first second : List Declaration}

theorem Expects.left (expects : around.Expects holds (first ++ second)) : around.Expects holds first where
  declared := expects.declared
  earlier := expects.earlier
  next outside := by
    have whole := expects.next outside
    rw [← List.append_assoc] at whole
    exact (List.prefix_append _ _).trans whole

/-- Behind the declarations that are made first. -/
theorem Expects.declare (expects : around.Expects holds (first ++ second))
    (known : ∀ declaration ∈ first, holds declaration.heading) :
    (around.declare first).Expects holds second := by
  have declared : ∀ declaration ∈ (around.declare first).declarations, holds declaration.heading := by
    intro declaration member
    rcases mem_declarations_declare member with old | new
    · exact expects.declared declaration old
    · exact known declaration new
  obtain ⟨bodies, earlier, globals⟩ := around
  cases bodies with
  | nil =>
    have whole : earlier ++ (first ++ second) <+: globals := expects.next rfl
    rw [← List.append_assoc] at whole
    exact ⟨declared, (List.prefix_append _ _).trans whole, fun _ => whole⟩
  | cons body outer => exact ⟨declared, expects.earlier, nofun⟩

/-- Behind a declaration by which what lies within it is surrounded as well. -/
theorem Expects.made {made : Declaration} (expects : around.Expects holds [made]) (known : holds made.heading) :
    (around.declare [made]).Expects holds [] :=
  @declare holds around [made] [] expects (List.forall_mem_singleton.mpr known)

/-- In a body, anything can come next. -/
theorem Expects.enter {parameters : List Declaration} (expects : around.Expects holds first)
    (known : ∀ declaration ∈ parameters, holds declaration.heading) (next : List Declaration) :
    (around.enter parameters).Expects holds next where
  declared declaration member := by
    rcases mem_declarations_enter member with old | new
    · exact expects.declared declaration old
    · exact known declaration new
  earlier := expects.earlier
  next := nofun

/-- A name denotes something if it is in sight. -/
theorem Expects.exists_denoted {next : List Declaration} (expects : around.Expects holds next) {name : String}
    (inSight : name ∈ around.names) : ∃ declaration, around.denoted? name = some declaration := by
  have found {declared : List Declaration} (member : name ∈ declared.map Declaration.name) :
      (first? name declared).isSome := by
    obtain ⟨declaration, present, own⟩ := List.mem_map.mp member
    exact List.find?_isSome.mpr ⟨declaration, present, by simpa using own⟩
  have latest {declared : List Declaration} (member : name ∈ declared.map Declaration.name) :
      (latest? name declared).isSome := found (by rwa [List.map_reverse, List.mem_reverse])
  obtain ⟨rest, split⟩ := expects.earlier
  simp only [names, List.flatMap_append, List.flatMap_singleton, List.mem_append, List.mem_flatMap,
    List.mem_reverse, ← split, List.map_append] at inSight
  simp only [← Option.isSome_iff_exists, denoted?, Option.orElse_eq_orElse, Option.orElse_eq_or, Option.isSome_or,
    Bool.or_eq_true, List.findSome?_isSome_iff]
  -- the global declarations that were made count as earlier ones, and the others come behind them
  rcases inSight with (⟨body, present, inBody⟩ | earlier) | earlier | later
  · exact .inl ⟨body, present, latest inBody⟩
  · exact .inr (.inl (latest earlier))
  · exact .inr (.inl (latest earlier))
  · exact .inr (.inr (found (by rwa [← split, List.drop_left])))

/-- What holds of all declarations around holds of the one that a name denotes. -/
theorem Expects.denoted {next : List Declaration} (expects : around.Expects holds next) {name : String}
    {declaration : Declaration} (denoted : around.denoted? name = some declaration) :
    holds declaration.heading := by
  obtain ⟨other, present, same⟩ := exists_mem_of_headingOf? (congrArg (Option.map Declaration.heading) denoted)
  exact same ▸ expects.declared other present

end Environment

section Types

variable {around : Environment}

theorem Ty.around_sightings (type : Ty) : ∀ sighting ∈ type.sightings around, sighting.around = around := by
  induction type using Ty.byParts with
  | builtin | struct => nofun
  | pointer target ih => exact ih
  | procedure parameters isVariadic result ihParameters ihResult =>
    refine List.forall_mem_append.mpr ⟨?_, ihResult⟩
    induction parameters with
    | nil => nofun
    | cons first rest ih =>
      obtain ⟨own, others⟩ := List.forall_mem_cons.mp ihParameters
      exact List.forall_mem_append.mpr ⟨own, ih others⟩
  | named path symbol => exact List.forall_mem_singleton.mpr rfl

theorem Member.around_sightings (members : List Member) :
    ∀ sighting ∈ Member.sightings around members, sighting.around = around :=
  Member.forall_sightings.mpr fun member _ => member.type.value.around_sightings

theorem around_annotationSightings (type : Option Annotation) :
    ∀ sighting ∈ annotationSightings around type, sighting.around = around :=
  forall_annotationSightings.mpr fun annotated _ => annotated.value.around_sightings

theorem ProcedureHead.around_sightings (head : ProcedureHead) :
    ∀ sighting ∈ head.sightings around, sighting.around = around :=
  List.forall_mem_append.mpr ⟨Member.around_sightings _, around_annotationSightings _⟩

end Types

namespace Plan.Names

variable {plan : Plan}

theorem declarations (names : plan.Names holds isField) :
    ∀ declaration ∈ plan.declarations, holds declaration.heading := by
  induction plan with
  | value | stated | reference => nofun
  | field span target name ih => exact ih names
  | expression span inner ih => exact ih names
  | external head => exact List.forall_mem_singleton.mpr names
  | procedure head body ih => exact List.forall_mem_singleton.mpr names.1.1
  | struct declared => exact List.forall_mem_singleton.mpr names.1
  | binding head initial ih =>
    exact List.forall_mem_append.mpr ⟨ih names.2, List.forall_mem_singleton.mpr names.1⟩
  | combine rule first second ihFirst ihSecond =>
    exact List.forall_mem_append.mpr ⟨ihFirst names.1, ihSecond names.2⟩

/-- What is expected in front of a plan is expected wherever a name is used in it. -/
theorem sightings (names : plan.Names holds isField) {around : Environment}
    (expects : around.Expects holds plan.declarations) :
    ∀ sighting ∈ plan.sightings around, sighting.around.Expects holds [] := by
  have plain {around : Environment} {next : List Declaration} (expects : around.Expects holds next)
      {sightings : List Sighting} (same : ∀ sighting ∈ sightings, sighting.around = around) :
      ∀ sighting ∈ sightings, sighting.around.Expects holds [] := fun sighting member =>
    same sighting member ▸ @Environment.Expects.left holds around [] next expects
  induction plan generalizing around with
  | value => nofun
  | stated type => exact plain expects type.around_sightings
  | reference span name symbol => exact List.forall_mem_singleton.mpr expects
  | field span target name ih => exact ih names expects
  | expression span inner ih => exact ih names expects
  | external head =>
    -- a procedure or a struct is known in its own head
    exact plain (Environment.Expects.made expects names) head.around_sightings
  | procedure head body ih =>
    have inside := Environment.Expects.made expects names.1.1
    exact List.forall_mem_append.mpr ⟨plain inside head.around_sightings,
      ih names.2 (inside.enter names.1.2 _)⟩
  | struct declared =>
    exact plain (Environment.Expects.made expects names.1) (Member.around_sightings declared.fields)
  | binding head initial ih =>
    exact List.forall_mem_append.mpr ⟨plain expects (around_annotationSightings head.type),
      ih names.2 expects.left⟩
  | combine rule first second ihFirst ihSecond =>
    exact List.forall_mem_append.mpr ⟨ihFirst names.1 expects.left,
      ihSecond names.2 (expects.declare names.1.declarations)⟩

/-- Binding names does not change what is declared. -/
theorem bind (names : plan.Names holds isField) (around : Environment) :
    (plan.bind around).Names holds isField := by
  induction plan generalizing around with
  | value | stated | reference => exact names
  | field span target name ih => exact ih names around
  | expression span inner ih => exact ih names around
  | external head =>
    simp only [Plan.bind, Names, ProcedureHead.heading_map, Heading.rename_id]
    exact names
  | procedure head body ih =>
    simp only [Plan.bind, Names, ProcedureHead.heading_map, Heading.rename_id, ProcedureHead.declarations_map_id]
    exact ⟨names.1, ih names.2 _⟩
  | struct declared =>
    simp only [Plan.bind, Names, Struct.heading_map, Heading.rename_id]
    exact ⟨names.1, List.forall_mem_map.mpr names.2⟩
  | binding head initial ih =>
    simp only [Plan.bind, Names, BindingHead.heading_map, Heading.rename_id]
    exact ⟨names.1, ih names.2 around⟩
  | combine rule first second ihFirst ihSecond => exact ⟨ihFirst names.1 _, ihSecond names.2 _⟩

/-- All declarations of a plan that is given symbols have one. -/
theorem number {isName : String → Prop} (names : plan.Names (fun heading => isName heading.name) isField)
    (start : Nat) :
    (plan.number start).Names (fun heading => isName heading.name ∧ heading.symbol.isSome) isField := by
  have members (start : Nat) {members : List Member}
      (named : ∀ declaration ∈ Member.declarations members, isName declaration.heading.name) :
      ∀ declaration ∈ Member.declarations (Member.number start members),
        isName declaration.heading.name ∧ declaration.heading.symbol.isSome := by
    rw [Member.declarations, List.forall_mem_map] at named ⊢
    exact Member.forall_number (fun binder _ => isName binder.value) named
  induction plan generalizing start with
  | value | stated | reference => exact names
  | field span target name ih => exact ih names start
  | expression span inner ih => exact ih names start
  | external head => exact ⟨names, rfl⟩
  | procedure head body ih => exact ⟨⟨⟨names.1.1, rfl⟩, members _ names.1.2⟩, ih names.2 _⟩
  | struct declared =>
    exact ⟨⟨names.1, rfl⟩, fun field member =>
      (Member.forall_number (fun binder _ => isField binder.value) names.2 field member).1⟩
  | binding head initial ih => exact ⟨⟨names.1, rfl⟩, ih names.2 start⟩
  | combine rule first second ihFirst ihSecond => exact ⟨ihFirst names.1 _, ihSecond names.2 _⟩

end Plan.Names

theorem Plan.names_sequence {plans : List Plan} :
    (sequence plans).Names holds isField ↔ ∀ plan ∈ plans, plan.Names holds isField := by
  induction plans with
  | nil => exact ⟨nofun, nofun⟩
  | cons first rest ih => exact (and_congr_right' ih).trans List.forall_mem_cons.symm

end Cadence
