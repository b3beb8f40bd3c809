import Cadence.Proofs.Plan.Settling
import Mathlib.Data.Set.Basic

/-!
# Which symbols a plan can get hold of

A walk comes across the symbols that are known around it and those that are declared on the way. If
nothing else is used in a plan and the types of the symbols that are known have no other names, then
there are no other names in any type that is found out.
-/
namespace Cadence

/-- All names in a type record symbols that are known, and something else holds of them. -/
def Ty.Grounded (known : Set SymbolIndex) (holds : Identifier → Option SymbolIndex → Prop) :
    Ty → Prop :=
  Ty.AllNames fun path symbol => (∀ index ∈ symbol, index ∈ known) ∧ holds path symbol

/-- The symbols that are known behind some declarations. -/
def knownBehind (known : Set SymbolIndex) (entries : List (SymbolIndex × Option Ty)) :
    Set SymbolIndex := known ∪ {index | index ∈ entries.map Prod.fst}

variable {known wider : Set SymbolIndex} {holds weaker : Identifier → Option SymbolIndex → Prop}

theorem Ty.Grounded.mono {type : Ty} (grounded : type.Grounded known holds) (more : known ⊆ wider)
    (implies : ∀ path symbol, holds path symbol → weaker path symbol) :
    type.Grounded wider weaker :=
  Ty.AllNames.mono grounded fun path symbol ⟨inside, sound⟩ =>
    ⟨fun index bound => more (inside index bound), implies path symbol sound⟩

theorem Ty.Grounded.allNames {type : Ty} (grounded : type.Grounded known holds) : type.AllNames holds :=
  Ty.AllNames.mono grounded fun _ _ => And.right

theorem subset_knownBehind (entries : List (SymbolIndex × Option Ty)) :
    known ⊆ knownBehind known entries := Set.subset_union_left

theorem mem_knownBehind_of_mem {entries : List (SymbolIndex × Option Ty)}
    {entry : SymbolIndex × Option Ty} (member : entry ∈ entries) : entry.1 ∈ knownBehind known entries :=
  .inr (List.mem_map_of_mem member)

@[simp]
theorem knownBehind_nil : knownBehind known [] = known := by
  simp [knownBehind]

theorem knownBehind_append (first second : List (SymbolIndex × Option Ty)) :
    knownBehind known (first ++ second) = knownBehind (knownBehind known first) second := by
  ext index
  simp [knownBehind, or_assoc]

/-- Which type is recorded for a binding does not matter to what is known behind it. -/
theorem knownBehind_binding (head : BindingHead) (initial : Plan) (type : Option Ty) :
    knownBehind known (Plan.binding head initial).entries =
      knownBehind (knownBehind known initial.entries) (head.entries type) := by
  rw [← knownBehind_append]
  simp [knownBehind, Plan.entries]

theorem knownBehind_mono (more : known ⊆ wider) (entries : List (SymbolIndex × Option Ty)) :
    knownBehind known entries ⊆ knownBehind wider entries := Set.union_subset_union_left _ more

/-- To declare once more what was declared makes nothing else known. -/
theorem knownBehind_eq {entries : List (SymbolIndex × Option Ty)} (more : known ⊆ wider)
    (less : wider ⊆ knownBehind known entries) :
    knownBehind wider entries = knownBehind known entries :=
  Set.Subset.antisymm (Set.union_subset less Set.subset_union_right) (knownBehind_mono more entries)

/-- The types of the symbols that are known have no names of other symbols. -/
def Types.Grounded (types : Types) (known : Set SymbolIndex)
    (holds : Identifier → Option SymbolIndex → Prop) : Prop :=
  ∀ index ∈ known, ∀ type ∈ types index, type.Grounded known holds

theorem Types.exists_mem_of_record {types : Types} {entries : List (SymbolIndex × Option Ty)}
    {index : SymbolIndex} (member : index ∈ entries.map Prod.fst) :
    (index, types.record entries index) ∈ entries := by
  induction entries generalizing types with
  | nil => cases member
  | cons first rest ih =>
    by_cases later : index ∈ rest.map Prod.fst
    · exact List.mem_cons_of_mem _ (ih later)
    · obtain rfl : index = first.1 := by simpa [later] using member
      change (first.1, record _ rest _) ∈ _
      simp only [record_of_notMem later, Function.update_self]
      exact List.mem_cons_self

theorem Types.Grounded.record {types : Types} (grounded : types.Grounded known holds)
    {entries : List (SymbolIndex × Option Ty)}
    (recorded : ∀ entry ∈ entries, ∀ type ∈ entry.2, type.Grounded (knownBehind known entries) holds) :
    (types.record entries).Grounded (knownBehind known entries) holds := by
  intro index inside
  by_cases member : index ∈ entries.map Prod.fst
  · exact recorded _ (exists_mem_of_record member)
  · rw [record_of_notMem member]
    exact fun type found => (grounded index (inside.resolve_right member) type found).mono
      (subset_knownBehind entries) fun _ _ => id

/-- The types that come up at an expression: its own one and that of what a field is asked of. -/
def Finding.types (finding : Finding) : List Ty :=
  match finding.usage with
  | .access target _ => target.toList ++ finding.type.toList
  | .reference _ | .other => finding.type.toList

theorem Finding.mem_types_of_type {finding : Finding} {type : Ty} (known : finding.type = some type) :
    type ∈ finding.types := by
  unfold types
  split <;> simp [known]

/-- What is found out has no names of symbols that are not known. -/
structure Outcome.Grounded (outcome : Outcome) (known : Set SymbolIndex)
    (holds : Identifier → Option SymbolIndex → Prop) : Prop where
  types : outcome.types.Grounded known holds
  type : ∀ type ∈ outcome.type, type.Grounded known holds
  findings : ∀ finding ∈ outcome.findings, ∀ type ∈ finding.types, type.Grounded known holds

section Rules

theorem Ty.AllNames.result {type result : Ty} (names : type.AllNames holds)
    (yields : type.result? = some result) : result.AllNames holds := by
  cases type with
  | procedure parameters isVariadic result' =>
    obtain rfl := Option.some.inj yields
    exact names.2
  | builtin | pointer | struct | named => cases yields

theorem Ty.AllNames.target {type target : Ty} (names : type.AllNames holds)
    (refers : type.target? = some target) : target.AllNames holds := by
  cases type with
  | pointer target' =>
    obtain rfl := Option.some.inj refers
    exact names
  | builtin | procedure | struct | named => cases refers

/-- What holds of types that are put together holds of the type that comes out. -/
structure Ty.IsInherited (inherits : Ty → Prop) : Prop where
  bool : inherits .bool
  pointer {target : Ty} : inherits target → inherits (.pointer target)
  target {type target : Ty} : inherits type → type.target? = some target → inherits target
  result {type result : Ty} : inherits type → type.result? = some result → inherits result

theorem Ty.isInherited_allNames : Ty.IsInherited (Ty.AllNames holds) where
  bool := trivial
  pointer := id
  target := AllNames.target
  result := AllNames.result

theorem Ty.IsInherited.type {inherits : Ty → Prop} (inherited : Ty.IsInherited inherits) (rule : Rule)
    {left right : Option Ty} (first : ∀ type ∈ left, inherits type) (second : ∀ type ∈ right, inherits type) :
    ∀ type ∈ rule.type left right, inherits type := by
  -- a type is put together of those of the parts, or it is the truth values
  cases rule with
  | nothing => simp [Rule.type]
  | first => exact first
  | second => exact second
  | result =>
    intro found yields
    obtain ⟨callee, known, result⟩ := Option.bind_eq_some_iff.mp yields
    exact inherited.result (first callee known) result
  | binary operator =>
    simp only [Rule.type, Operator.binaryType]
    split
    · rintro _ ⟨⟩
      exact inherited.bool
    · rintro _ ⟨⟩
      exact inherited.bool
    · exact first
  | unary operator =>
    simp only [Rule.type, Operator.unaryType]
    split
    · rintro _ ⟨⟩
      exact inherited.bool
    · intro found pointer
      obtain ⟨target, known, rfl⟩ := Option.map_eq_some_iff.mp pointer
      exact inherited.pointer (first target known)
    · intro found target
      obtain ⟨pointer, known, refers⟩ := Option.bind_eq_some_iff.mp target
      exact inherited.target (first pointer known) refers
    · exact first

end Rules

section Entries

variable {recorded : Ty → Prop}

theorem forall_entryOf {symbol : Option SymbolIndex} {type : Ty} (written : recorded type) :
    ∀ entry ∈ entryOf symbol (some type), ∀ found ∈ entry.2, recorded found := by
  intro entry member found same
  obtain ⟨_, own⟩ := mem_entryOf.mp member
  obtain rfl : type = found := by simpa [← own] using same
  exact written

theorem Member.forall_entries {members : List Member}
    (types : ∀ member ∈ members, recorded member.type.value) :
    ∀ entry ∈ Member.entries members, ∀ type ∈ entry.2, recorded type :=
  List.forall_mem_flatMap.mpr fun member present => forall_entryOf (types member present)

theorem ProcedureHead.forall_allEntries {head : ProcedureHead} (type : recorded head.type)
    (types : ∀ parameter ∈ head.parameters, recorded parameter.type.value) :
    ∀ entry ∈ head.entries ++ Member.entries head.parameters, ∀ type ∈ entry.2, recorded type :=
  List.forall_mem_append.mpr ⟨forall_entryOf type, Member.forall_entries types⟩

theorem Struct.forall_allEntries {struct : Struct} (type : recorded struct.type)
    (types : ∀ field ∈ struct.fields, recorded field.type.value) :
    ∀ entry ∈ Member.entries struct.fields ++ struct.entries, ∀ type ∈ entry.2, recorded type :=
  List.forall_mem_append.mpr ⟨Member.forall_entries types, forall_entryOf type⟩

theorem ProcedureHead.allNames_entries {head : ProcedureHead}
    (types : head.AllTypes (Ty.AllNames holds)) :
    ∀ entry ∈ head.entries, ∀ type ∈ entry.2, type.AllNames holds :=
  forall_entryOf (ProcedureHead.allNames_type types)

theorem ProcedureHead.allNames_allEntries {head : ProcedureHead}
    (types : head.AllTypes (Ty.AllNames holds)) :
    ∀ entry ∈ head.entries ++ Member.entries head.parameters, ∀ type ∈ entry.2, type.AllNames holds :=
  forall_allEntries (ProcedureHead.allNames_type types) types.1

theorem Struct.allNames_allEntries {struct : Struct} (types : struct.AllTypes (Ty.AllNames holds)) :
    ∀ entry ∈ Member.entries struct.fields ++ struct.entries, ∀ type ∈ entry.2,
      type.AllNames holds :=
  forall_allEntries (Struct.allNames_type types) types

end Entries

namespace Plan

/-- Nothing but symbols that are known at each place is used in a plan, and something else holds of
all names in the types that are written down. -/
def WellScoped (holds : Identifier → Option SymbolIndex → Prop) : Set SymbolIndex → Plan → Prop
  | known, value type => ∀ found ∈ type, found.Grounded known holds
  | known, stated type => type.Grounded known holds
  | known, reference _ _ symbol => ∀ index ∈ symbol, index ∈ known
  | known, .field _ target _ => target.WellScoped holds known
  | known, expression _ inner => inner.WellScoped holds known
  | known, external head => head.AllTypes (Ty.Grounded (knownBehind known head.entries) holds)
  | known, procedure head body =>
    let inside := knownBehind known (head.entries ++ Member.entries head.parameters)
    head.AllTypes (Ty.Grounded inside holds) ∧ body.WellScoped holds inside
  | known, struct declared =>
    declared.AllTypes (Ty.Grounded
      (knownBehind known (Member.entries declared.fields ++ declared.entries)) holds)
  | known, binding head initial =>
    head.AllTypes (Ty.Grounded known holds) ∧ initial.WellScoped holds known
  | known, combine _ first second =>
    first.WellScoped holds known ∧ second.WellScoped holds (knownBehind known first.entries)

theorem WellScoped.mono {plan : Plan} (fits : plan.WellScoped holds known) (more : known ⊆ wider)
    (implies : ∀ path symbol, holds path symbol → weaker path symbol) :
    plan.WellScoped weaker wider := by
  have types {inner outer : Set SymbolIndex} (wide : inner ⊆ outer) (type : Ty)
      (grounded : type.Grounded inner holds) : type.Grounded outer weaker :=
    grounded.mono wide implies
  -- what is declared on the way is added to both sets
  induction plan generalizing known wider with
  | value type => exact fun found member => types more found (fits found member)
  | stated type => exact types more type fits
  | reference span name symbol => exact fun index member => more (fits index member)
  | field span target name ih => exact ih fits more
  | expression span inner ih => exact ih fits more
  | external head =>
    have inside := types (knownBehind_mono more head.entries)
    exact ⟨fun parameter member => inside _ (fits.1 parameter member),
      fun result member => inside _ (fits.2 result member)⟩
  | procedure head body ih =>
    have wide := knownBehind_mono more (head.entries ++ Member.entries head.parameters)
    exact ⟨⟨fun parameter member => types wide _ (fits.1.1 parameter member),
      fun result member => types wide _ (fits.1.2 result member)⟩, ih fits.2 wide⟩
  | struct declared =>
    exact fun field member => types (knownBehind_mono more _) _ (fits field member)
  | binding head initial ih =>
    exact ⟨fun type member => types more _ (fits.1 type member), ih fits.2 more⟩
  | combine rule first second ihFirst ihSecond =>
    exact ⟨ihFirst fits.1 more, ihSecond fits.2 (knownBehind_mono more _)⟩

/-- What holds of all names in the types that are written down holds of those of declarations. -/
theorem WellScoped.allNames_entries {plan : Plan} (fits : plan.WellScoped holds known) :
    ∀ entry ∈ plan.entries, ∀ type ∈ entry.2, type.AllNames holds := by
  have names {known : Set SymbolIndex} {entries : List (SymbolIndex × Option Ty)}
      (grounded : ∀ entry ∈ entries, ∀ type ∈ entry.2, type.Grounded known holds) :
      ∀ entry ∈ entries, ∀ type ∈ entry.2, type.AllNames holds :=
    fun entry member type found => (grounded entry member type found).allNames
  induction plan generalizing known with
  | value | stated | reference => nofun
  | field span target name ih => exact ih fits
  | expression span inner ih => exact ih fits
  | external head => exact names (ProcedureHead.allNames_entries fits)
  | procedure head body ih =>
    exact List.forall_mem_append.mpr ⟨names (ProcedureHead.allNames_allEntries fits.1), ih fits.2⟩
  | struct declared => exact names (Struct.allNames_allEntries fits)
  | binding head initial ih =>
    refine List.forall_mem_append.mpr ⟨ih fits.2, fun entry member type found => ?_⟩
    obtain ⟨_, same⟩ := mem_entryOf.mp member
    obtain ⟨annotated, present, rfl⟩ := Option.map_eq_some_iff.mp ((Option.or_none ▸ same).trans found)
    exact (fits.1 annotated present).allNames
  | combine rule first second ihFirst ihSecond =>
    exact List.forall_mem_append.mpr ⟨ihFirst fits.1, ihSecond fits.2⟩

variable {globals : String → Option SymbolIndex}

/-- The fields of the values of a type have no further names. -/
theorem grounded_layout {types : Types} (global : ∀ name, ∀ index ∈ globals name, index ∈ known)
    (sound : types.Grounded known holds) {type : Ty} (grounded : type.Grounded known holds)
    (field : Identifier) :
    ∀ found ∈ (types.layout globals type).fieldType? field, found.Grounded known holds := by
  have inFields {fields : List (String × Ty)} (all : Ty.AllFieldNames
      (fun path symbol => (∀ index ∈ symbol, index ∈ known) ∧ holds path symbol) fields) :
      ∀ found ∈ (fields.find? fun candidate => candidate.1 = field.value).map Prod.snd,
        found.Grounded known holds := by
    intro found present
    obtain ⟨candidate, chosen, rfl⟩ := Option.map_eq_some_iff.mp present
    exact (Ty.allFieldNames_iff _ _).mp all _ (List.mem_of_find?_eq_some chosen)
  cases type with
  | struct name fields => exact inFields grounded
  | builtin | pointer | procedure => simp [Types.layout, Layout.fieldType?]
  | named path symbol =>
    simp only [Types.layout]
    split
    next => simp [Layout.fieldType?]
    next index chosen =>
      -- the symbol comes from the type itself or from the global scope
      have inside : index ∈ known := by
        rcases Option.or_eq_some_iff.mp chosen with own | ⟨_, global'⟩
        · exact grounded.1 index own
        · exact global path.value index global'
      unfold Layout.ofDeclared
      split
      next name fields declared => exact inFields (sound index inside _ declared)
      next => simp [Layout.fieldType?]

end Plan

namespace Outcome.Grounded

variable {outcome first second : Outcome}

/-- What is found out about an expression is the type of its last part. -/
theorem finding (grounded : outcome.Grounded known holds) (span : Source.Span) :
    (outcome.finding span).Grounded known holds := by
  refine ⟨grounded.types, grounded.type, fun finding member => ?_⟩
  rcases List.mem_append.mp member with old | new
  · exact grounded.findings finding old
  · obtain rfl := List.mem_singleton.mp new
    exact fun type own => grounded.type type (Option.mem_toList.mp own)

theorem access {globals : String → Option SymbolIndex}
    (global : ∀ name, ∀ index ∈ globals name, index ∈ known) (grounded : outcome.Grounded known holds)
    (span : Source.Span) (name : Identifier) :
    (outcome.access (Types.layout globals) span name).Grounded known holds := by
  have found : ∀ type ∈ (outcome.access (Types.layout globals) span name).type,
      type.Grounded known holds := by
    simp only [Outcome.access]
    cases target : outcome.type with
    | none => simp [Layout.fieldType?]
    | some type => exact Plan.grounded_layout global grounded.types (grounded.type type target) name
  refine ⟨grounded.types, found, fun finding member => ?_⟩
  rcases List.mem_append.mp member with old | new
  · exact grounded.findings finding old
  -- the type that comes up besides that of the field is the one that is asked
  · obtain rfl := List.mem_singleton.mp new
    intro type present
    rcases List.mem_append.mp present with asked | own
    · exact grounded.type type (Option.mem_toList.mp asked)
    · exact found type (Option.mem_toList.mp own)

/-- What the first part finds out about is still known behind the second one. -/
theorem combine (rule : Rule) (left : first.Grounded known holds) (more : known ⊆ wider)
    (right : second.Grounded wider holds) : (first.combine rule second).Grounded wider holds := by
  have wide {type : Ty} (grounded : type.Grounded known holds) : type.Grounded wider holds :=
    grounded.mono more fun _ _ => id
  refine ⟨right.types, ?_, fun finding member => ?_⟩
  · exact Ty.isInherited_allNames.type rule (fun type found => wide (left.type type found)) right.type
  · rcases List.mem_append.mp member with inFirst | inSecond
    · exact fun type found => wide (left.findings finding inFirst type found)
    · exact right.findings finding inSecond

/-- A binding is recorded with the type that is written down, else with that of its initial value. -/
theorem binding {inner : Outcome} {head : BindingHead} (types : head.AllTypes (Ty.Grounded known holds))
    (grounded : inner.Grounded known holds) :
    (inner.declaring (head.entries inner.type)).Grounded
      (knownBehind known (head.entries inner.type)) holds := by
  have more : known ⊆ knownBehind known (head.entries inner.type) := subset_knownBehind _
  have own : ∀ entry ∈ head.entries inner.type, ∀ type ∈ entry.2,
      type.Grounded (knownBehind known (head.entries inner.type)) holds := by
    intro entry member type found
    obtain ⟨_, same⟩ := mem_entryOf.mp member
    rw [← same] at found
    rcases Option.or_eq_some_iff.mp found with written | ⟨_, inferred⟩
    · obtain ⟨annotated, present, rfl⟩ := Option.map_eq_some_iff.mp written
      exact Ty.Grounded.mono (types annotated present) more fun _ _ => id
    · exact (grounded.type type inferred).mono more fun _ _ => id
  refine ⟨grounded.types.record own, by simp [Outcome.declaring], fun finding member type found => ?_⟩
  exact (grounded.findings finding member type found).mono more fun _ _ => id

end Outcome.Grounded

namespace Plan

variable {globals : String → Option SymbolIndex}

/-- A walk over a plan finds out nothing about symbols that are not known. -/
theorem WellScoped.run_grounded {plan : Plan} (fits : plan.WellScoped holds known)
    (global : ∀ name, ∀ index ∈ globals name, index ∈ known) {types : Types}
    (sound : types.Grounded known holds) :
    (plan.run (Types.layout globals) types).Grounded (knownBehind known plan.entries) holds := by
  -- what is known grows by what is recorded on the way
  induction plan generalizing known types with
  | value type =>
    rw [entries, knownBehind_nil]
    exact ⟨sound, fits, by simp [run, Outcome.plain]⟩
  | stated type =>
    rw [entries, knownBehind_nil]
    refine ⟨sound, ?_, by simp [run, Outcome.plain]⟩
    rintro _ ⟨⟩
    exact fits
  | reference span name symbol =>
    rw [entries, knownBehind_nil]
    have found : ∀ type ∈ symbol.bind types, type.Grounded known holds := by
      intro type present
      obtain ⟨index, bound, typed⟩ := Option.bind_eq_some_iff.mp present
      exact sound index (fits index bound) type typed
    exact ⟨sound, found, by simpa [run, Finding.types] using found⟩
  | field span target name ih =>
    exact (ih fits global sound).access
      (fun name index bound => subset_knownBehind _ (global name index bound)) span name
  | expression span inner ih => exact (ih fits global sound).finding span
  | external head =>
    exact ⟨sound.record (ProcedureHead.allNames_entries fits), by simp [run, Outcome.plain],
      by simp [run, Outcome.plain]⟩
  | procedure head body ih =>
    have inner := ih fits.2 (fun name index bound => subset_knownBehind _ (global name index bound))
      (sound.record (ProcedureHead.allNames_allEntries fits.1))
    rw [← knownBehind_append] at inner
    exact ⟨inner.types, by simp [run, Outcome.declaring], inner.findings⟩
  | struct declared =>
    exact ⟨sound.record (Struct.allNames_allEntries fits), by simp [run, Outcome.plain],
      by simp [run, Outcome.plain]⟩
  | binding head initial ih =>
    have inner := ih fits.2 global sound
    have written : head.AllTypes (Ty.Grounded (knownBehind known initial.entries) holds) :=
      fun annotated present =>
        Ty.Grounded.mono (fits.1 annotated present) (subset_knownBehind _) fun _ _ => id
    rw [knownBehind_binding head initial (initial.run (Types.layout globals) types).type]
    exact inner.binding written
  | combine rule first second ihFirst ihSecond =>
    have left := ihFirst fits.1 global sound
    have right := ihSecond fits.2
      (fun name index bound => subset_knownBehind _ (global name index bound)) left.types
    rw [entries, knownBehind_append]
    exact left.combine rule (subset_knownBehind _) right

variable {plan : Plan} {plans : List Plan} {start final : Types} {last : Outcome}
  {outcomes : List Outcome}

/-- However often a tree is walked over, nothing else becomes known. -/
theorem WellScoped.iterate_grounded (fits : plan.WellScoped holds known)
    (global : ∀ name, ∀ index ∈ globals name, index ∈ known) (sound : start.Grounded known holds)
    (count : Nat) :
    ∃ wider, known ⊆ wider ∧ wider ⊆ knownBehind known plan.entries ∧
      ((plan.step (Types.layout globals))^[count] start).Grounded wider holds := by
  induction count with
  | zero => exact ⟨known, fun _ => id, subset_knownBehind _, sound⟩
  | succ count ih =>
    obtain ⟨wider, more, less, sound⟩ := ih
    have again := (fits.mono more fun _ _ => id).run_grounded
      (fun name index bound => more (global name index bound)) sound
    rw [knownBehind_eq more less] at again
    rw [Function.iterate_succ_apply']
    exact ⟨_, subset_knownBehind _, fun _ => id, again.types⟩

theorem Settles.grounded (settles : plan.Settles (Types.layout globals) start last)
    (fits : plan.WellScoped holds known) (global : ∀ name, ∀ index ∈ globals name, index ∈ known)
    (sound : start.Grounded known holds) : last.Grounded (knownBehind known plan.entries) holds := by
  obtain ⟨count, rfl, _⟩ := settles
  obtain ⟨wider, more, less, sound⟩ := fits.iterate_grounded global sound count
  rw [← knownBehind_eq more less]
  exact (fits.mono more fun _ _ => id).run_grounded
    (fun name index bound => more (global name index bound)) sound

/-- What is found out in some trees that are walked over one after the other has no names of symbols
that are not known. -/
theorem SettleAll.grounded (settle : SettleAll (Types.layout globals) plans start outcomes final)
    (fits : (sequence plans).WellScoped holds known)
    (global : ∀ name, ∀ index ∈ globals name, index ∈ known) (sound : start.Grounded known holds) :
    final.Grounded (knownBehind known (sequence plans).entries) holds ∧
      ∀ last ∈ outcomes, ∀ finding ∈ last.findings, ∀ type ∈ finding.types,
        type.Grounded (knownBehind known (sequence plans).entries) holds := by
  induction settle generalizing known with
  | nil => exact ⟨by simpa [sequence, entries] using sound, by simp⟩
  | cons first rest ih =>
    have own := first.grounded fits.1 global sound
    obtain ⟨final, others⟩ := ih fits.2
      (fun name index bound => subset_knownBehind _ (global name index bound)) own.types
    simp only [sequence, entries, knownBehind_append]
    refine ⟨final, List.forall_mem_cons.mpr ⟨?_, others⟩⟩
    exact fun finding member type found =>
      (own.findings finding member type found).mono (subset_knownBehind _) fun _ _ => id

end Plan

end Cadence
