import Cadence.Proofs.Plan.Completion
import Cadence.Proofs.Plan.Sightings

/-!
# Bound names are known

The rule of scoping only ever finds declarations that were made in the scopes around or lie in the
global scope. A plan whose names are bound by it therefore only gets hold of symbols that are known. If
the names that stand for types in it denote structs, what is recorded for them are structs.
-/
namespace Cadence

namespace Environment

/-- All declarations that can be referred to. -/
def declarations (around : Environment) : List Declaration :=
  around.bodies.flatten ++ (around.earlier ++ around.globals)

theorem exists_mem_of_headingOf? {around : Environment} {name : String} {heading : Heading}
    (found : around.headingOf? name = some heading) :
    ∃ declaration ∈ around.declarations, declaration.heading = heading := by
  obtain ⟨declaration, denoted, rfl⟩ := Option.map_eq_some_iff.mp found
  refine ⟨declaration, ?_, rfl⟩
  simp only [denoted?, Option.orElse_eq_orElse, Option.orElse_eq_or, Option.or_eq_some_iff] at denoted
  simp only [declarations, List.mem_append, List.mem_flatten]
  rcases denoted with inBody | ⟨_, earlier | ⟨_, later⟩⟩
  · obtain ⟨body, present, latest⟩ := List.exists_of_findSome?_eq_some inBody
    exact .inl ⟨body, present, by simpa using List.mem_of_find?_eq_some latest⟩
  · exact .inr (.inl (by simpa using List.mem_of_find?_eq_some earlier))
  · exact .inr (.inr (List.mem_of_mem_drop (List.mem_of_find?_eq_some later)))

theorem mem_declarations_declare {around : Environment} {declared : List Declaration}
    {declaration : Declaration} (member : declaration ∈ (around.declare declared).declarations) :
    declaration ∈ around.declarations ∨ declaration ∈ declared := by
  obtain ⟨bodies, earlier, globals⟩ := around
  cases bodies with
  | nil =>
    simp only [declarations, declare, List.flatten_nil, List.nil_append, List.mem_append] at member ⊢
    tauto
  | cons body outer =>
    simp only [declarations, declare, List.flatten_cons, List.mem_append] at member ⊢
    tauto

theorem mem_declarations_enter {around : Environment} {parameters : List Declaration}
    {declaration : Declaration} (member : declaration ∈ (around.enter parameters).declarations) :
    declaration ∈ around.declarations ∨ declaration ∈ parameters := by
  simp only [declarations, enter, List.flatten_cons, List.mem_append] at member ⊢
  tauto

end Environment

/-- The symbol of a declaration is known, and it is that of a struct if the declaration is. -/
def Declaration.IsKnown (declaration : Declaration) (known : Set SymbolIndex) (written : Types) : Prop :=
  (∀ index ∈ declaration.symbol?, index ∈ known) ∧
    (declaration.heading.kind = .struct → written.HasStruct declaration.symbol?)

/-- All declarations that can be referred to are known. -/
def Environment.IsKnown (around : Environment) (known : Set SymbolIndex) (written : Types) : Prop :=
  ∀ declaration ∈ around.declarations, declaration.IsKnown known written

section Known

variable {around : Environment} {known wider : Set SymbolIndex} {written : Types}

theorem Declaration.IsKnown.mono {declaration : Declaration}
    (isKnown : declaration.IsKnown known written) (more : known ⊆ wider) :
    declaration.IsKnown wider written :=
  ⟨fun index own => more (isKnown.1 index own), isKnown.2⟩

theorem Environment.IsKnown.declare (isKnown : around.IsKnown known written) (more : known ⊆ wider)
    {declared : List Declaration}
    (further : ∀ declaration ∈ declared, declaration.IsKnown wider written) :
    (around.declare declared).IsKnown wider written := by
  intro declaration member
  rcases mem_declarations_declare member with old | new
  · exact (isKnown declaration old).mono more
  · exact further declaration new

theorem Environment.IsKnown.enter (isKnown : around.IsKnown known written)
    {parameters : List Declaration}
    (further : ∀ declaration ∈ parameters, declaration.IsKnown known written) :
    (around.enter parameters).IsKnown known written := by
  intro declaration member
  rcases mem_declarations_enter member with old | new
  · exact isKnown declaration old
  · exact further declaration new

/-- A type in which no name is misused has only names of structs that are known. -/
theorem Ty.grounded_bind {type : Ty} (plain : type.IsPlain)
    (right : type.misnamed around = []) (isKnown : around.IsKnown known written) :
    (type.bind around).Grounded known written.NamesStruct := by
  rw [bind_eq_mapNames plain]
  refine allNames_mapNames.mpr ((allNames_of_misnamed plain right).mono fun path symbol bound => ?_)
  obtain ⟨heading, found, struct⟩ := bound
  obtain ⟨declaration, present, rfl⟩ := Environment.exists_mem_of_headingOf? found
  simp only [Environment.structOf?, found, struct, ↓reduceIte]
  exact ⟨(isKnown declaration present).1, (isKnown declaration present).2 struct⟩

theorem Member.grounded_bind {members : List Member}
    (plain : ∀ member ∈ members, member.type.value.IsPlain)
    (right : Member.misnamed around members = []) (isKnown : around.IsKnown known written) :
    ∀ member ∈ members.map (Member.map id (Ty.bind around)),
      member.type.value.Grounded known written.NamesStruct := by
  intro member present
  obtain ⟨original, inside, rfl⟩ := List.mem_map.mp present
  exact Ty.grounded_bind (plain original inside) (List.flatMap_eq_nil_iff.mp right original inside)
    isKnown

theorem Ty.grounded_bindOption {type : Option Annotation}
    (plain : ∀ annotated ∈ type, annotated.value.IsPlain)
    (right : Ty.misnamedOption around type = []) (isKnown : around.IsKnown known written) :
    ∀ annotated ∈ type.map (Spanned.map (Ty.bind around)),
      annotated.value.Grounded known written.NamesStruct := by
  intro annotated present
  obtain ⟨annotated, rfl, rfl⟩ := Option.map_eq_some_iff.mp present
  exact Ty.grounded_bind (plain annotated rfl) right isKnown

end Known

namespace Plan

/-- All that is declared has a symbol. -/
def IsPlaced : Plan → Prop
  | value _ | stated _ | reference _ _ _ => True
  | .field _ target _ => target.IsPlaced
  | expression _ inner => inner.IsPlaced
  | external head => head.symbol.isSome
  | procedure head body => head.symbol.isSome ∧ body.IsPlaced
  | struct declared => declared.symbol.isSome
  | binding head initial => head.symbol.isSome ∧ initial.IsPlaced
  | combine _ first second => first.IsPlaced ∧ second.IsPlaced

theorem mem_entries_of_symbol {members : List Member} {declaration : Declaration}
    (present : declaration ∈ Member.declarations members) {index : SymbolIndex}
    (own : declaration.symbol? = some index) : index ∈ (Member.entries members).map Prod.fst := by
  obtain ⟨member, inside, rfl⟩ := List.mem_map.mp present
  refine List.mem_map.mpr ⟨(index, some member.type.value), List.mem_flatMap.mpr ⟨member, inside, ?_⟩, rfl⟩
  exact mem_entryOf.mpr ⟨own, rfl⟩

/-- The symbols of declarations are among those that are declared. -/
theorem mem_symbols_of_declarations (plan : Plan) {declaration : Declaration}
    (member : declaration ∈ plan.declarations) {index : SymbolIndex}
    (own : declaration.symbol? = some index) : index ∈ plan.symbols := by
  induction plan with
  | value | stated | reference => cases member
  | field span target name ih => exact ih member
  | expression span inner ih => exact ih member
  | external head =>
    obtain rfl := List.mem_singleton.mp member
    have declared : (index, some head.type) ∈ head.entries := mem_entryOf.mpr ⟨own, rfl⟩
    exact List.mem_map_of_mem (f := Prod.fst) declared
  | procedure head body ih =>
    obtain rfl := List.mem_singleton.mp member
    have declared : (index, some head.type) ∈ head.entries := mem_entryOf.mpr ⟨own, rfl⟩
    simp only [symbols_procedure, List.map_append, List.mem_append]
    exact .inl (.inl (List.mem_map_of_mem (f := Prod.fst) declared))
  | struct declared =>
    obtain rfl := List.mem_singleton.mp member
    have declared' : (index, some declared.type) ∈ declared.entries := mem_entryOf.mpr ⟨own, rfl⟩
    exact List.mem_map_of_mem (f := Prod.fst) (List.mem_append_right _ declared')
  | binding head initial ih =>
    rw [symbols_binding, List.mem_append]
    rcases List.mem_append.mp member with inInitial | same
    · exact .inl (ih inInitial)
    · obtain rfl := List.mem_singleton.mp same
      have declared : head.symbol = some index := own
      exact .inr (by simpa using declared)
  | combine rule first second ihFirst ihSecond =>
    rw [symbols_combine, List.mem_append]
    exact (List.mem_append.mp member).imp ihFirst ihSecond

/-- A struct is recorded as one. -/
theorem hasStruct_of_declarations (plan : Plan) {written : Types} (placed : plan.IsPlaced)
    (fresh : plan.IsFresh written) {declaration : Declaration}
    (member : declaration ∈ plan.declarations) (struct : declaration.heading.kind = .struct) :
    written.HasStruct declaration.symbol? := by
  induction plan with
  | value | stated | reference => cases member
  | field span target name ih => exact ih placed fresh member
  | expression span inner ih => exact ih placed fresh member
  | external | procedure =>
    obtain rfl := List.mem_singleton.mp member
    cases struct
  | struct declared =>
    obtain rfl := List.mem_singleton.mp member
    obtain ⟨index, own⟩ := Option.isSome_iff_exists.mp placed
    have entry : (index, some declared.type) ∈ declared.entries := mem_entryOf.mpr ⟨own, rfl⟩
    exact ⟨index, _, _, own, fresh _ (List.mem_append_right _ entry)⟩
  | binding head initial ih =>
    rcases List.mem_append.mp member with inInitial | same
    · exact ih placed.2 (List.forall_mem_append.mp fresh).1 inInitial
    · obtain rfl := List.mem_singleton.mp same
      cases struct
  | combine rule first second ihFirst ihSecond =>
    obtain ⟨left, right⟩ := List.forall_mem_append.mp fresh
    exact (List.mem_append.mp member).elim (ihFirst placed.1 left) (ihSecond placed.2 right)

/-- The declarations of a plan are known behind it. -/
theorem isKnown_declarations (plan : Plan) {written : Types} (placed : plan.IsPlaced)
    (fresh : plan.IsFresh written) {known : Set SymbolIndex} {declaration : Declaration}
    (member : declaration ∈ plan.declarations) :
    declaration.IsKnown (knownBehind known plan.entries) written :=
  ⟨fun _ own => .inr (plan.mem_symbols_of_declarations member own),
    plan.hasStruct_of_declarations placed fresh member⟩

@[simp]
theorem isPlaced_bind (plan : Plan) (around : Environment) :
    (plan.bind around).IsPlaced ↔ plan.IsPlaced := by
  induction plan generalizing around with
  | value | stated | reference => rfl
  | field span target name ih => exact ih around
  | expression span inner ih => exact ih around
  | external head => simp [bind, IsPlaced, ProcedureHead.map]
  | procedure head body ih => simp [bind, IsPlaced, ProcedureHead.map, ih]
  | struct declared => simp [bind, IsPlaced, Struct.map]
  | binding head initial ih => simp [bind, IsPlaced, BindingHead.map, ih]
  | combine rule first second ihFirst ihSecond => simp [bind, IsPlaced, ihFirst, ihSecond]

/-- Behind a plan whose names are bound, its declarations are known besides those around it. -/
theorem isKnown_behind {around : Environment} {known : Set SymbolIndex} {written : Types}
    (isKnown : around.IsKnown known written) (plan : Plan) (placed : plan.IsPlaced)
    (fresh : (plan.bind around).IsFresh written) :
    (around.declare plan.declarations).IsKnown (knownBehind known (plan.bind around).entries) written :=
  isKnown.declare (subset_knownBehind _) fun declaration member =>
    isKnown_declarations _ ((isPlaced_bind _ _).mpr placed) fresh
      (by rw [declarations_bind]; exact member)

/-- In its own head, a procedure is known, and in its body, the parameters are as well. -/
theorem isKnown_body {around : Environment} {known : Set SymbolIndex} {written : Types}
    (isKnown : around.IsKnown known written) (head : ProcedureHead) (body : Plan) :
    let head' := head.map id (Ty.bind (insideProcedure around head body))
    let behind := knownBehind known (head'.entries ++ Member.entries head'.parameters)
    (insideProcedure around head body).IsKnown behind written ∧
      ((insideProcedure around head body).enter (Member.declarations head.parameters)).IsKnown
        behind written := by
  intro head' behind
  have inside : (insideProcedure around head body).IsKnown behind written := by
    refine isKnown.declare (subset_knownBehind _) fun declaration member => ?_
    obtain rfl := List.mem_singleton.mp member
    refine ⟨fun index own => ?_, fun struct => by cases struct⟩
    have symbol : head'.symbol = some index := (congrFun Option.map_id head.symbol).trans own
    have entry : (index, some head'.type) ∈ head'.entries := mem_entryOf.mpr ⟨symbol, rfl⟩
    exact mem_knownBehind_of_mem (List.mem_append_left _ entry)
  refine ⟨inside, inside.enter fun declaration member => ⟨fun index own => ?_, fun struct => ?_⟩⟩
  · rw [← head.declarations_map_id] at member
    have entry := mem_entries_of_symbol member own
    exact .inr (by rw [List.map_append]; exact List.mem_append_right _ entry)
  · obtain ⟨_, _, rfl⟩ := List.mem_map.mp member
    cases struct

/-- A plan whose names are bound, and in which those that stand for types denote structs, only gets
hold of what is known. -/
theorem wellScoped_bind (plan : Plan) {written : Types} {known : Set SymbolIndex}
    {around : Environment} (plain : plan.AllWritten Ty.IsPlain) (placed : plan.IsPlaced)
    (fresh : (plan.bind around).IsFresh written) (structs : plan.DenotesStructs around)
    (isKnown : around.IsKnown known written) :
    (plan.bind around).WellScoped written.NamesStruct known := by
  induction plan generalizing around known with
  | value type => exact fun found member => (plain found member).mono fun _ _ => False.elim
  | stated type => exact Ty.grounded_bind plain (Ty.misnamed_eq_nil structs) isKnown
  | reference span name symbol =>
    intro index bound
    obtain ⟨heading, found, own⟩ := Option.bind_eq_some_iff.mp bound
    obtain ⟨declaration, present, rfl⟩ := Environment.exists_mem_of_headingOf? found
    exact (isKnown declaration present).1 index own
  | field span target name ih => exact ih plain placed fresh structs isKnown
  | expression span inner ih => exact ih plain placed fresh structs isKnown
  | external head =>
    obtain ⟨parameters, result⟩ := List.append_eq_nil_iff.mp (ProcedureHead.misnamed_eq_nil structs)
    have inside := isKnown_behind isKnown (external head) placed fresh
    exact ⟨Member.grounded_bind plain.1 parameters inside,
      Ty.grounded_bindOption plain.2 result inside⟩
  | procedure head body ih =>
    obtain ⟨heads, inBody⟩ := List.forall_mem_append.mp structs
    obtain ⟨parameters, result⟩ := List.append_eq_nil_iff.mp (ProcedureHead.misnamed_eq_nil heads)
    obtain ⟨inside, entered⟩ := isKnown_body isKnown head body
    exact ⟨⟨Member.grounded_bind plain.1.1 parameters inside,
      Ty.grounded_bindOption plain.1.2 result inside⟩,
      ih plain.2 placed.2 (List.forall_mem_append.mp fresh).2 inBody entered⟩
  | struct declared =>
    have inside := isKnown_behind isKnown (struct declared) placed fresh
    exact Member.grounded_bind plain (Member.misnamed_eq_nil structs) inside
  | binding head initial ih =>
    obtain ⟨type, inInitial⟩ := List.forall_mem_append.mp structs
    exact ⟨Ty.grounded_bindOption plain.1 (Ty.misnamedOption_eq_nil type) isKnown,
      ih plain.2 placed.2 (List.forall_mem_append.mp fresh).1 inInitial isKnown⟩
  | combine rule first second ihFirst ihSecond =>
    obtain ⟨inFirst, inSecond⟩ := List.forall_mem_append.mp structs
    obtain ⟨left, right⟩ := List.forall_mem_append.mp fresh
    exact ⟨ihFirst plain.1 placed.1 left inFirst isKnown,
      ihSecond plain.2 placed.2 right inSecond (isKnown_behind isKnown first placed.1 left)⟩

/-- What is declared in the scope around, each symbol with the type that is written down for it. -/
def surface : Plan → List (SymbolIndex × Option Ty)
  | value _ | stated _ | reference _ _ _ => []
  | .field _ target _ => target.surface
  | expression _ inner => inner.surface
  | external head | procedure head _ => head.entries
  | struct declared => declared.entries
  | binding head initial => initial.surface ++ head.entries none
  | combine _ first second => first.surface ++ second.surface

theorem surface_subset_entries (plan : Plan) : plan.surface ⊆ plan.entries := by
  induction plan with
  | value | stated | reference | external => exact fun _ => id
  | field span target name ih => exact ih
  | expression span inner ih => exact ih
  | procedure head body ih =>
    exact fun entry member => List.mem_append_left _ (List.mem_append_left _ member)
  | struct declared => exact List.subset_append_right _ _
  | binding head initial ih =>
    exact List.append_subset.mpr
      ⟨fun entry member => List.mem_append_left _ (ih member), List.subset_append_right _ _⟩
  | combine rule first second ihFirst ihSecond =>
    exact List.append_subset.mpr ⟨fun entry member => List.mem_append_left _ (ihFirst member),
      fun entry member => List.mem_append_right _ (ihSecond member)⟩

theorem exists_mem_surface (plan : Plan) {declaration : Declaration}
    (member : declaration ∈ plan.declarations) {index : SymbolIndex}
    (own : declaration.symbol? = some index) : ∃ type, (index, type) ∈ plan.surface := by
  induction plan with
  | value | stated | reference => cases member
  | field span target name ih => exact ih member
  | expression span inner ih => exact ih member
  | external | procedure | struct =>
    obtain rfl := List.mem_singleton.mp member
    exact ⟨_, mem_entryOf.mpr ⟨own, rfl⟩⟩
  | binding head initial ih =>
    rcases List.mem_append.mp member with inInitial | same
    · obtain ⟨type, present⟩ := ih inInitial
      exact ⟨type, List.mem_append_left _ present⟩
    · obtain rfl := List.mem_singleton.mp same
      exact ⟨_, List.mem_append_right _ (mem_entryOf.mpr ⟨own, rfl⟩)⟩
  | combine rule first second ihFirst ihSecond =>
    rcases List.mem_append.mp member with inFirst | inSecond
    · obtain ⟨type, present⟩ := ihFirst inFirst
      exact ⟨type, List.mem_append_left _ present⟩
    · obtain ⟨type, present⟩ := ihSecond inSecond
      exact ⟨type, List.mem_append_right _ present⟩

end Plan

section Surface

variable {around : Environment} {lookup : String → Option Heading}

/-- A name in a type is still to be bound, and it will be bound to a struct. -/
def AwaitsStruct (lookup : String → Option Heading) (path : Identifier)
    (symbol : Option SymbolIndex) : Prop :=
  symbol = none ∧ ∃ heading, lookup path.value = some heading ∧ heading.kind = .struct

theorem Ty.awaitsStruct {type : Ty} (written : type.IsWritten) (same : around.headingOf? = lookup)
    (right : type.misnamed around = []) : type.AllNames (AwaitsStruct lookup) :=
  same ▸ written.unbound.and (allNames_of_misnamed written.plain right)

/-- A type that is written down is completed when its names are bound. -/
theorem Ty.bind_eq_complete {type : Ty} (written : type.IsWritten) (same : around.headingOf? = lookup)
    (right : type.misnamed around = []) :
    type.bind around = type.complete fun name => (lookup name).bind Heading.symbol := by
  rw [bind_eq_mapNames written.plain]
  refine mapNames_congr ((awaitsStruct written same right).mono ?_)
  rintro path _ ⟨rfl, heading, found, struct⟩
  simp [Environment.structOf?, same, found, struct]

/-- The types in the head of a procedure are written down, and none of the names in them is misused. -/
theorem ProcedureHead.allTypes_right {head : ProcedureHead} (written : head.AllTypes Ty.IsWritten)
    (right : head.misnamed around = []) :
    head.AllTypes fun type => type.IsWritten ∧ type.misnamed around = [] := by
  obtain ⟨parameters, result⟩ := List.append_eq_nil_iff.mp right
  refine ⟨fun parameter member => ⟨written.1 parameter member, ?_⟩, fun annotated present =>
    ⟨written.2 annotated present, ?_⟩⟩
  · exact List.flatMap_eq_nil_iff.mp parameters parameter member
  · rw [Option.mem_def.mp present] at result
    exact result

namespace Plan

/-- What is declared is only completed when its names are bound. -/
theorem mem_mapEntries_complete {entries : List (SymbolIndex × Option Ty)}
    {globals : String → Option SymbolIndex} {entry : SymbolIndex × Option Ty} (member : entry ∈ entries) :
    (entry.1, entry.2.map (Ty.complete globals)) ∈ mapEntries id (Ty.complete globals) entries :=
  List.mem_map.mpr ⟨entry, member, rfl⟩

/-- The types of declarations are completed when their names are bound, and the names that are still to be
bound will be bound to structs. -/
def CompleteOnBinding (lookup : String → Option Heading) (entries bound : List (SymbolIndex × Option Ty)) :
    Prop :=
  ∀ entry ∈ entries,
    (entry.1, entry.2.map (Ty.complete fun name => (lookup name).bind Heading.symbol)) ∈ bound ∧
      ∀ type ∈ entry.2, type.AllNames (AwaitsStruct lookup)

/-- What a declaration with its names bound is recorded with is only completed. -/
theorem CompleteOnBinding.of_eq {entries bound : List (SymbolIndex × Option Ty)}
    (same : bound = mapEntries id (Ty.complete fun name => (lookup name).bind Heading.symbol) entries)
    (names : ∀ entry ∈ entries, ∀ type ∈ entry.2, type.AllNames (AwaitsStruct lookup)) :
    CompleteOnBinding lookup entries bound :=
  fun entry member => ⟨same ▸ mem_mapEntries_complete member, names entry member⟩

theorem CompleteOnBinding.append {first second bound bound' : List (SymbolIndex × Option Ty)}
    (left : CompleteOnBinding lookup first bound) (right : CompleteOnBinding lookup second bound') :
    CompleteOnBinding lookup (first ++ second) (bound ++ bound') := by
  intro entry member
  rcases List.mem_append.mp member with old | new
  · exact ⟨List.mem_append_left _ (left entry old).1, (left entry old).2⟩
  · exact ⟨List.mem_append_right _ (right entry new).1, (right entry new).2⟩

theorem completeOnBinding_procedure {head : ProcedureHead} (written : head.AllTypes Ty.IsWritten)
    (same : around.headingOf? = lookup) (right : head.misnamed around = []) :
    CompleteOnBinding lookup head.entries (head.map id (Ty.bind around)).entries := by
  have types := ProcedureHead.allTypes_right written right
  rw [ProcedureHead.map_congr types fun type known => Ty.bind_eq_complete known.1 same known.2]
  refine .of_eq head.entries_map (ProcedureHead.allNames_entries ⟨fun parameter present => ?_,
    fun result present => ?_⟩)
  · exact Ty.awaitsStruct (types.1 parameter present).1 same (types.1 parameter present).2
  · exact Ty.awaitsStruct (types.2 result present).1 same (types.2 result present).2

theorem completeOnBinding_struct {declared : Struct} (written : declared.AllTypes Ty.IsWritten)
    (same : around.headingOf? = lookup) (right : Member.misnamed around declared.fields = []) :
    CompleteOnBinding lookup declared.entries (declared.map id (Ty.bind around)).entries := by
  have types : declared.AllTypes fun type => type.IsWritten ∧ type.misnamed around = [] :=
    fun field member => ⟨written field member, List.flatMap_eq_nil_iff.mp right field member⟩
  rw [Struct.map_congr types fun type known => Ty.bind_eq_complete known.1 same known.2]
  refine .of_eq declared.entries_map fun entry member => ?_
  exact Struct.allNames_allEntries (fun field present =>
    Ty.awaitsStruct (types field present).1 same (types field present).2) entry
      (List.mem_append_right _ member)

theorem completeOnBinding_binding {head : BindingHead} (written : head.AllTypes Ty.IsWritten)
    (same : around.headingOf? = lookup) (right : Ty.misnamedOption around head.type = []) :
    CompleteOnBinding lookup (head.entries none) ((head.map id (Ty.bind around)).entries none) := by
  have types : head.AllTypes fun type => type.IsWritten ∧ type.misnamed around = [] :=
    fun annotated present => by
      rw [Option.mem_def.mp present] at right
      exact ⟨written annotated present, right⟩
  rw [BindingHead.map_congr types fun type known => Ty.bind_eq_complete known.1 same known.2]
  refine .of_eq (head.entries_map id _ none) fun entry own type found => ?_
  obtain ⟨_, stated⟩ := mem_entryOf.mp own
  obtain ⟨annotated, present, rfl⟩ := Option.map_eq_some_iff.mp ((Option.or_none ▸ stated).trans found)
  exact Ty.awaitsStruct (types annotated present).1 same (types annotated present).2

/-- Declarations that can be referred to from everywhere, wherever they are made, are completed with
what can be referred to from everywhere. -/
theorem surface_complete (plan : Plan) (written : plan.AllWritten Ty.IsWritten)
    (steady : ∀ made, made <+: plan.declarations → (around.declare made).headingOf? = lookup)
    (structs : plan.DenotesStructs around) :
    CompleteOnBinding lookup plan.surface (plan.bind around).surface := by
  induction plan generalizing around with
  | value | stated | reference => nofun
  | field span target name ih => exact ih written steady structs
  | expression span inner ih => exact ih written steady structs
  | external head =>
    exact completeOnBinding_procedure written (steady _ (List.prefix_refl _))
      (ProcedureHead.misnamed_eq_nil structs)
  | procedure head body ih =>
    exact completeOnBinding_procedure written.1 (steady _ (List.prefix_refl _))
      (ProcedureHead.misnamed_eq_nil (List.forall_mem_append.mp structs).1)
  | struct declared =>
    exact completeOnBinding_struct written (steady _ (List.prefix_refl _))
      (Member.misnamed_eq_nil structs)
  | binding head initial ih =>
    obtain ⟨annotations, inInitial⟩ := List.forall_mem_append.mp structs
    have inner := ih written.2 (fun made initial' => steady made (initial'.trans (List.prefix_append _ _)))
      inInitial
    -- the type that is written down does not see the binding
    have same : around.headingOf? = lookup := by
      have nothing := steady [] List.nil_prefix
      rwa [Environment.declare_nil] at nothing
    exact inner.append
      (completeOnBinding_binding written.1 same (Ty.misnamedOption_eq_nil annotations))
  | combine rule first second ihFirst ihSecond =>
    obtain ⟨inFirst, inSecond⟩ := List.forall_mem_append.mp structs
    have left := ihFirst written.1 (fun made initial => steady made (initial.trans (List.prefix_append _ _)))
      inFirst
    -- the second part stands behind what the first one declares
    have behind := ihSecond written.2 (fun made initial => by
      rw [← Environment.declare_append]
      exact steady _ ((List.prefix_append_right_inj _).mpr initial)) inSecond
    exact left.append behind

end Plan

end Surface

end Cadence
