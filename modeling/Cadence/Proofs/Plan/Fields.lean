import Cadence.Proofs.Plan.Naming

/-!
# The fields that a walk finds out about

The types that come up in a walk are those that are written down, those of structs that are declared, and
pointers to them. So whatever the fields of a value are known to be, a struct was declared with them.
-/
namespace Cadence

/-- A type that comes up in a walk: one that can be written down, that of a struct with fields whose names
something holds of, or that of a pointer to something of such a type. -/
inductive Ty.ComesUp (isField : String → Prop) : Ty → Prop
  | plain {type : Ty} : type.IsPlain → type.ComesUp isField
  | struct {name : String} {fields : List (String × Ty)} :
      (∀ field ∈ fields, isField field.1 ∧ field.2.IsPlain) → (Ty.struct name fields).ComesUp isField
  | pointer {target : Ty} : target.ComesUp isField → (Ty.pointer target).ComesUp isField

/-- If there are fields, something holds of their names, and their types can be written down. -/
def Layout.HasFields (isField : String → Prop) : Layout → Prop
  | struct _ fields => ∀ field ∈ fields, isField field.1 ∧ field.2.IsPlain
  | notAStruct | unknown => True

/-- Nothing but such types is known of symbols. -/
def Types.ComeUp (isField : String → Prop) (types : Types) : Prop :=
  ∀ index, ∀ type ∈ types index, type.ComesUp isField

variable {holds : Heading → Prop} {isField : String → Prop}

namespace Ty.ComesUp

variable {type : Ty}

theorem target {target : Ty} (known : type.ComesUp isField) (refers : type.target? = some target) :
    target.ComesUp isField := by
  cases type with
  | pointer target' =>
    obtain rfl := Option.some.inj refers
    cases known with
    | plain isPlain => exact .plain isPlain
    | pointer inner => exact inner
  | builtin | procedure | struct | named => cases refers

theorem result {result : Ty} (known : type.ComesUp isField) (yields : type.result? = some result) :
    result.ComesUp isField := by
  cases type with
  | procedure parameters isVariadic result' =>
    obtain rfl := Option.some.inj yields
    cases known with
    | plain isPlain => exact .plain isPlain.2
  | builtin | pointer | struct | named => cases yields

theorem isInherited : Ty.IsInherited (Ty.ComesUp isField) where
  bool := .plain trivial
  pointer := .pointer
  target := target
  result := result

theorem hasFields {name : String} {fields : List (String × Ty)}
    (known : (Ty.struct name fields).ComesUp isField) :
    (Layout.struct name fields).HasFields isField := by
  cases known with
  | plain isPlain => cases isPlain
  | struct inside => exact inside

end Ty.ComesUp

namespace Types.ComeUp

variable {types : Types}

theorem record (known : types.ComeUp isField) {entries : List (SymbolIndex × Option Ty)}
    (further : ∀ entry ∈ entries, ∀ type ∈ entry.2, type.ComesUp isField) :
    (types.record entries).ComeUp isField := by
  intro index
  by_cases member : index ∈ entries.map Prod.fst
  · exact further _ (exists_mem_of_record member)
  · rw [record_of_notMem member]
    exact known index

theorem layout (known : types.ComeUp isField) {type : Ty} (comesUp : type.ComesUp isField)
    (globals : String → Option SymbolIndex) : (types.layout globals type).HasFields isField := by
  cases type with
  | struct name fields => exact comesUp.hasFields
  | builtin | pointer | procedure => trivial
  | named path symbol =>
    simp only [Types.layout]
    split
    next => trivial
    next index _ =>
      unfold Layout.ofDeclared
      split
      next name fields declared => exact (known index _ declared).hasFields
      next => trivial

/-- Nothing is known about the fields of what has no type. -/
theorem layoutOf (known : types.ComeUp isField) {type : Option Ty}
    (comesUp : ∀ found ∈ type, found.ComesUp isField) (globals : String → Option SymbolIndex) :
    (type.elim .unknown (types.layout globals)).HasFields isField := by
  cases type with
  | none => trivial
  | some found => exact known.layout (comesUp found rfl) globals

end Types.ComeUp

theorem Layout.HasFields.fieldType {layout : Layout} (known : layout.HasFields isField) (field : Identifier) :
    ∀ type ∈ layout.fieldType? field, type.ComesUp isField := by
  cases layout with
  | struct name fields =>
    intro type found
    obtain ⟨candidate, chosen, rfl⟩ := Option.map_eq_some_iff.mp found
    exact .plain (known candidate (List.mem_of_find?_eq_some chosen)).2
  | notAStruct | unknown => nofun

section Entries

theorem ProcedureHead.comeUp_entries {head : ProcedureHead} (types : head.AllTypes Ty.IsPlain) :
    ∀ entry ∈ head.entries ++ Member.entries head.parameters, ∀ type ∈ entry.2, type.ComesUp isField :=
  forall_allEntries (.plain (isPlain_type types)) fun parameter member => .plain (types.1 parameter member)

theorem Struct.comeUp_entries {declared : Struct} (types : declared.AllTypes Ty.IsPlain)
    (names : ∀ field ∈ declared.fields, isField field.binder.value) :
    ∀ entry ∈ Member.entries declared.fields ++ declared.entries, ∀ type ∈ entry.2, type.ComesUp isField :=
  forall_allEntries
    (.struct (List.forall_mem_map.mpr fun field member => ⟨names field member, types field member⟩))
    fun field member => .plain (types field member)

theorem BindingHead.comeUp_entries {head : BindingHead} (types : head.AllTypes Ty.IsPlain) {found : Option Ty}
    (known : ∀ type ∈ found, type.ComesUp isField) :
    ∀ entry ∈ head.entries found, ∀ type ∈ entry.2, type.ComesUp isField := by
  intro entry declared type recorded
  obtain ⟨_, same⟩ := mem_entryOf.mp declared
  rcases Option.or_eq_some_iff.mp (same.trans recorded) with stated | ⟨_, initial⟩
  · obtain ⟨annotated, present, rfl⟩ := Option.map_eq_some_iff.mp stated
    exact .plain (types annotated present)
  · exact known type initial

end Entries

namespace Plan.Names

variable {plan : Plan} {types : Types} {globals : String → Option SymbolIndex}

/-- What is written down for the symbols of a plan comes up. -/
theorem entries (names : plan.Names holds isField) (written : plan.AllWritten Ty.IsPlain) :
    ∀ entry ∈ plan.entries, ∀ type ∈ entry.2, type.ComesUp isField := by
  induction plan with
  | value | stated | reference => nofun
  | field span target name ih => exact ih names written
  | expression span inner ih => exact ih names written
  | external head => exact (List.forall_mem_append.mp (ProcedureHead.comeUp_entries written)).1
  | procedure head body ih =>
    exact List.forall_mem_append.mpr ⟨ProcedureHead.comeUp_entries written.1, ih names.2 written.2⟩
  | struct declared => exact Struct.comeUp_entries written names.2
  | binding head initial ih =>
    exact List.forall_mem_append.mpr ⟨ih names.2 written.2, BindingHead.comeUp_entries written.1 nofun⟩
  | combine rule first second ihFirst ihSecond =>
    exact List.forall_mem_append.mpr ⟨ihFirst names.1 written.1, ihSecond names.2 written.2⟩

/-- In a walk, nothing comes up but what is written down and what structs are declared with. -/
theorem run (names : plan.Names holds isField) (written : plan.AllWritten Ty.IsPlain)
    (known : types.ComeUp isField) :
    (plan.run (Types.layout globals) types).types.ComeUp isField ∧
      ∀ type ∈ (plan.run (Types.layout globals) types).type, type.ComesUp isField := by
  induction plan generalizing types with
  | value type => exact ⟨known, fun found member => .plain (names found member)⟩
  | stated type => exact ⟨known, fun found member => Option.some.inj member ▸ .plain written⟩
  | reference span name symbol =>
    refine ⟨known, fun found member => ?_⟩
    -- a reference has the type that was recorded before
    obtain ⟨index, _, recorded⟩ := Option.bind_eq_some_iff.mp member
    exact known index found recorded
  | field span target name ih =>
    obtain ⟨inner, own⟩ := ih names written known
    exact ⟨inner, (inner.layoutOf own globals).fieldType name⟩
  | expression span inner ih => exact ih names written known
  | external head =>
    exact ⟨known.record (List.forall_mem_append.mp (ProcedureHead.comeUp_entries written)).1, nofun⟩
  | procedure head body ih =>
    exact ⟨(ih names.2 written.2 (known.record (ProcedureHead.comeUp_entries written.1))).1, nofun⟩
  | struct declared =>
    exact ⟨known.record (Struct.comeUp_entries written names.2), nofun⟩
  | binding head initial ih =>
    obtain ⟨inner, own⟩ := ih names.2 written.2 known
    exact ⟨inner.record (BindingHead.comeUp_entries written.1 own), nofun⟩
  | combine rule first second ihFirst ihSecond =>
    obtain ⟨left, leftType⟩ := ihFirst names.1 written.1 known
    obtain ⟨right, rightType⟩ := ihSecond names.2 written.2 left
    exact ⟨right, Ty.ComesUp.isInherited.type rule leftType rightType⟩

theorem accesses (names : plan.Names holds isField) (written : plan.AllWritten Ty.IsPlain)
    (known : types.ComeUp isField) :
    ∀ access ∈ plan.accesses (Types.layout globals) types, access.layout.HasFields isField := by
  induction plan generalizing types with
  | value | stated | reference | external | struct => nofun
  | field span target name ih =>
    have inTarget : target.Names holds isField := names
    obtain ⟨inner, own⟩ := inTarget.run written known
    exact List.forall_mem_append.mpr ⟨ih names written known,
      List.forall_mem_singleton.mpr (inner.layoutOf own globals)⟩
  | expression span inner ih => exact ih names written known
  | procedure head body ih => exact ih names.2 written.2 (known.record (ProcedureHead.comeUp_entries written.1))
  | binding head initial ih => exact ih names.2 written.2 known
  | combine rule first second ihFirst ihSecond =>
    exact List.forall_mem_append.mpr ⟨ihFirst names.1 written.1 known,
      ihSecond names.2 written.2 (names.1.run written.1 known).1⟩

/-- However often a tree is walked over. -/
theorem lastTypes (names : plan.Names holds isField) (written : plan.AllWritten Ty.IsPlain)
    (known : types.ComeUp isField) : (plan.lastTypes (Types.layout globals) types).ComeUp isField := by
  fun_induction Plan.lastTypes (Types.layout globals) plan types with
  | case1 => exact known
  | case2 types first more less ih => exact ih (names.run written known).1
  | case3 => exact (names.run written known).1

end Plan.Names

/-- In the last walks over several trees, all fields that are known are fields of structs. -/
theorem Plan.hasFields_lastAccesses {globals : String → Option SymbolIndex} {plans : List Plan}
    (names : ∀ plan ∈ plans, plan.Names holds isField) (written : ∀ plan ∈ plans, plan.AllWritten Ty.IsPlain)
    {types : Types} (known : types.ComeUp isField) :
    ∀ access ∈ lastAccesses (Types.layout globals) plans types, access.layout.HasFields isField := by
  induction plans generalizing types with
  | nil => nofun
  | cons first rest ih =>
    obtain ⟨ownNames, otherNames⟩ := List.forall_mem_cons.mp names
    obtain ⟨ownTypes, otherTypes⟩ := List.forall_mem_cons.mp written
    have start : (first.lastTypes (Types.layout globals) types).ComeUp isField :=
      ownNames.lastTypes ownTypes known
    exact List.forall_mem_append.mpr ⟨ownNames.accesses ownTypes start,
      ih otherNames otherTypes (ownNames.run ownTypes start).1⟩

end Cadence
