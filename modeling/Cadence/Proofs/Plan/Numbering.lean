import Cadence.Proofs.Plan.Scoping
import Cadence.Proofs.Plan.Tree

/-!
# The symbols that plans are given

What a plan declares is given consecutive symbols, each scope one of its own. A plan that is given
symbols from elsewhere on is the same one, with each symbol exchanged for the one in its place.
-/
namespace Cadence

/-- The members with consecutive symbols. -/
def Member.number (start : Nat) : List Member → List Member
  | [] => []
  | first :: rest => { first with symbol := some ⟨start⟩ } :: Member.number (start + 1) rest

namespace Plan

/-- The number of symbols that a plan is given. -/
def size : Plan → Nat
  | value _ | stated _ | reference _ _ _ => 0
  | .field _ target _ => target.size
  | expression _ inner => inner.size
  | external _ => 1
  | procedure head body => 2 + head.parameters.length + body.size
  | struct declared => 2 + declared.fields.length
  | binding _ initial => initial.size + 1
  | combine _ first second => first.size + second.size

/-- The plan with consecutive symbols. Right behind a procedure or a struct comes the scope of its
body, which has no other place in the plan. -/
def number (start : Nat) : Plan → Plan
  | value type => value type
  | stated type => stated type
  | reference span name symbol => reference span name symbol
  | .field span target name => .field span (target.number start) name
  | expression span inner => expression span (inner.number start)
  | external head => external { head with symbol := some ⟨start⟩ }
  | procedure head body =>
    procedure
      { head with
        parameters := Member.number (start + 2) head.parameters
        symbol := some ⟨start⟩ }
      (body.number (start + 2 + head.parameters.length))
  | struct declared =>
    struct
      { declared with
        fields := Member.number (start + 2) declared.fields
        symbol := some ⟨start⟩ }
  | binding head initial =>
    binding { head with symbol := some ⟨start + initial.size⟩ } (initial.number start)
  | combine rule first second =>
    combine rule (first.number start) (second.number (start + first.size))

/-- Plans with consecutive symbols, one plan after the other. -/
def numberAll (start : Nat) : List Plan → List Plan
  | [] => []
  | first :: rest => first.number start :: numberAll (start + first.size) rest

@[simp]
theorem length_numberAll (start : Nat) (plans : List Plan) :
    (numberAll start plans).length = plans.length := by
  induction plans generalizing start with
  | nil => rfl
  | cons first rest ih => simp [numberAll, ih]

theorem isEmpty_numberAll (start : Nat) (plans : List Plan) :
    (numberAll start plans).isEmpty = plans.isEmpty := by
  cases plans <;> rfl

theorem number_sequence (start : Nat) (plans : List Plan) :
    (sequence plans).number start = sequence (numberAll start plans) := by
  induction plans generalizing start with
  | nil => rfl
  | cons first rest ih => rw [sequence, number, ih, numberAll, sequence, isEmpty_numberAll]

end Plan

section Members

variable {start start' : Nat} {σ : SymbolIndex → SymbolIndex} {change : Ty → Ty}

theorem Member.number_map (members : List Member)
    (shift : ∀ place < members.length, σ ⟨start + place⟩ = ⟨start' + place⟩) :
    (Member.number start members).map (Member.map σ change) =
      Member.number start' (members.map (Member.map σ change)) := by
  induction members generalizing start start' with
  | nil => rfl
  | cons first rest ih =>
    have own := shift 0 (Nat.zero_lt_succ _)
    have others := @ih (start + 1) (start' + 1) fun place inside => by
      have next := shift (place + 1) (Nat.succ_lt_succ inside)
      rwa [Nat.add_comm place, ← Nat.add_assoc, ← Nat.add_assoc] at next
    simp only [number, List.map_cons, others]
    simpa [Member.map] using own

theorem Member.symbols_number (members : List Member) :
    (Member.entries (Member.number start members)).map Prod.fst =
      (List.range' start members.length).map SymbolIndex.mk := by
  induction members generalizing start with
  | nil => rfl
  | cons first rest ih =>
    have others := @ih (start + 1)
    simp only [number, entries, List.flatMap_cons, List.map_append, map_fst_entryOf, Option.toList_some,
      List.length_cons, List.range'_succ, List.map_cons] at others ⊢
    rw [others]
    rfl

theorem Member.mem_symbols_number {members : List Member} {index : SymbolIndex}
    (inside : index ∈ (Member.entries (Member.number start members)).map Prod.fst) :
    start ≤ index.value ∧ index.value < start + members.length := by
  rw [symbols_number] at inside
  obtain ⟨value, member, rfl⟩ := List.mem_map.mp inside
  obtain ⟨place, before, rfl⟩ := List.mem_range'.mp member
  dsimp only
  omega

theorem Member.nodup_symbols_number (members : List Member) :
    ((Member.entries (Member.number start members)).map Prod.fst).Nodup := by
  rw [symbols_number]
  exact List.Nodup.map (fun left right same => congrArg SymbolIndex.value same) List.nodup_range'

/-- Members keep what they say when they are given symbols. -/
theorem Member.forall_number (property : Identifier → Annotation → Prop) {members : List Member}
    (known : ∀ member ∈ members, property member.binder member.type) :
    ∀ member ∈ Member.number start members, property member.binder member.type ∧ member.symbol.isSome := by
  induction members generalizing start with
  | nil => nofun
  | cons first rest ih =>
    obtain ⟨own, others⟩ := List.forall_mem_cons.mp known
    exact List.forall_mem_cons.mpr ⟨⟨own, rfl⟩, ih others⟩

theorem Member.types_number {holds : Ty → Prop} {members : List Member}
    (types : ∀ member ∈ members, holds member.type.value) :
    ∀ member ∈ Member.number start members, holds member.type.value := fun member present =>
  (Member.forall_number (fun _ type => holds type.value) types member present).1

end Members

namespace Plan

variable {start start' : Nat} {σ : SymbolIndex → SymbolIndex}

/-- All symbols of a plan lie in the block of those that it is given. -/
theorem mem_symbols_number {plan : Plan} {index : SymbolIndex}
    (member : index ∈ (plan.number start).symbols) :
    start ≤ index.value ∧ index.value < start + plan.size := by
  -- the parts of a plan are numbered one behind the other
  induction plan generalizing start with
  | value | stated | reference => cases member
  | field span target name ih => exact ih member
  | expression span inner ih => exact ih member
  | external head =>
    obtain rfl : index = ⟨start⟩ := by simpa [number, symbols, entries, ProcedureHead.entries] using member
    simp [size]
  | procedure head body ih =>
    simp only [number, symbols_procedure, List.map_append, List.mem_append] at member
    simp only [size]
    rcases member with (own | parameter) | inBody
    · obtain rfl : index = ⟨start⟩ := by simpa [ProcedureHead.entries] using own
      exact ⟨Nat.le_refl _, by dsimp only; omega⟩
    · have inside := Member.mem_symbols_number parameter
      omega
    · have inside := ih inBody
      omega
  | struct declared =>
    simp only [number, symbols, entries, List.map_append, List.mem_append] at member
    simp only [size]
    rcases member with field | own
    · have inside := Member.mem_symbols_number field
      omega
    · obtain rfl : index = ⟨start⟩ := by simpa [Struct.entries] using own
      exact ⟨Nat.le_refl _, by dsimp only; omega⟩
  | binding head initial ih =>
    simp only [number, symbols_binding, List.mem_append, Option.toList_some, List.mem_singleton] at member
    simp only [size]
    rcases member with inInitial | rfl
    · have inside := ih inInitial
      omega
    · dsimp only
      omega
  | combine rule first second ihFirst ihSecond =>
    simp only [number, symbols_combine, List.mem_append] at member
    simp only [size]
    rcases member with inFirst | inSecond
    · have inside := ihFirst inFirst
      omega
    · have inside := ihSecond inSecond
      omega

theorem disjoint_symbols_number {first second : Plan} :
    (first.number start).symbols.Disjoint (second.number (start + first.size)).symbols := by
  intro index left right
  have inFirst := mem_symbols_number left
  have inSecond := mem_symbols_number right
  omega

/-- No symbol is given twice. -/
theorem nodup_symbols_number (plan : Plan) : (plan.number start).symbols.Nodup := by
  -- parts that are numbered one behind the other have their symbols from separate ranges
  induction plan generalizing start with
  | value | stated | reference => exact List.nodup_nil
  | field span target name ih => exact ih
  | expression span inner ih => exact ih
  | external head => simp [number, symbols, entries, ProcedureHead.entries]
  | procedure head body ih =>
    rw [number, symbols_procedure, List.map_append]
    refine ((List.nodup_singleton _).append (Member.nodup_symbols_number _) ?_).append ih ?_
    · intro index own parameter
      obtain rfl := List.mem_singleton.mp own
      have inside := Member.mem_symbols_number parameter
      dsimp only at inside
      omega
    · intro index inHead inBody
      have inside := Plan.mem_symbols_number inBody
      rcases List.mem_append.mp inHead with own | parameter
      · obtain rfl := List.mem_singleton.mp own
        dsimp only at inside
        omega
      · have before := Member.mem_symbols_number parameter
        omega
  | struct declared =>
    rw [number, symbols, entries, List.map_append]
    refine (Member.nodup_symbols_number _).append (List.nodup_singleton _) fun index field own => ?_
    obtain rfl := List.mem_singleton.mp own
    have inside := Member.mem_symbols_number field
    dsimp only at inside
    omega
  | binding head initial ih =>
    rw [number, symbols_binding, Option.toList_some]
    refine List.Nodup.append ih (List.nodup_singleton _) fun index inInitial own => ?_
    obtain rfl := List.mem_singleton.mp own
    have inside := mem_symbols_number inInitial
    dsimp only at inside
    omega
  | combine rule first second ihFirst ihSecond =>
    rw [number, symbols_combine]
    exact ihFirst.append ihSecond disjoint_symbols_number

theorem isPlaced_number (plan : Plan) : (plan.number start).IsPlaced := by
  induction plan generalizing start with
  | value | stated | reference => trivial
  | field span target name ih => exact ih
  | expression span inner ih => exact ih
  | external | struct => rfl
  | procedure head body ih => exact ⟨rfl, ih⟩
  | binding head initial ih => exact ⟨rfl, ih⟩
  | combine rule first second ihFirst ihSecond => exact ⟨ihFirst, ihSecond⟩

theorem AllWritten.number {plan : Plan} {holds : Ty → Prop} (written : plan.AllWritten holds) :
    (plan.number start).AllWritten holds := by
  induction plan generalizing start with
  | value | stated | reference | external => exact written
  | field span target name ih => exact ih written
  | expression span inner ih => exact ih written
  | procedure head body ih => exact ⟨⟨Member.types_number written.1.1, written.1.2⟩, ih written.2⟩
  | struct declared => exact Member.types_number written
  | binding head initial ih => exact ⟨written.1, ih written.2⟩
  | combine rule first second ihFirst ihSecond => exact ⟨ihFirst written.1, ihSecond written.2⟩

@[simp]
theorem size_rename (plan : Plan) : (plan.rename σ).size = plan.size := by
  induction plan with
  | value | stated | reference | external => rfl
  | field span target name ih => exact ih
  | expression span inner ih => exact ih
  | procedure head body ih => simp [rename, size, ih, ProcedureHead.map]
  | struct declared => simp [rename, size, Struct.map]
  | binding head initial ih => simp [rename, size, ih]
  | combine rule first second ihFirst ihSecond => simp [rename, size, ihFirst, ihSecond]

/-- To exchange symbols for those in the same place of another block is to give those in the first
place. -/
theorem rename_number (plan : Plan)
    (shift : ∀ place < plan.size, σ ⟨start + place⟩ = ⟨start' + place⟩) :
    (plan.number start).rename σ = (plan.rename σ).number start' := by
  induction plan generalizing start start' with
  | value | stated | reference => rfl
  | field span target name ih => exact congrArg (Plan.field span · name) (ih shift)
  | expression span inner ih => exact congrArg (expression span) (ih shift)
  | external head =>
    have own := shift 0 (Nat.one_pos)
    simpa [number, rename, ProcedureHead.map] using own
  | procedure head body ih =>
    simp only [size] at shift
    have own := shift 0 (by omega)
    -- the parameters come behind the symbols of the procedure and its scope
    have parameters := @Member.number_map (start + 2) (start' + 2) σ (Ty.rename σ) head.parameters
      fun place inside => by
        have next := shift (2 + place) (by omega)
        rwa [← Nat.add_assoc, ← Nat.add_assoc] at next
    have inner := @ih (start + 2 + head.parameters.length) (start' + 2 + head.parameters.length)
      fun place inside => by
        have next := shift (2 + head.parameters.length + place) (by omega)
        simp only [← Nat.add_assoc] at next
        exact next
    simp only [number, rename, inner, ProcedureHead.map, List.length_map, parameters]
    simpa using own
  | struct declared =>
    simp only [size] at shift
    have own := shift 0 (by omega)
    have fields := @Member.number_map (start + 2) (start' + 2) σ (Ty.rename σ) declared.fields
      fun place inside => by
        have next := shift (2 + place) (by omega)
        rwa [← Nat.add_assoc, ← Nat.add_assoc] at next
    simp only [number, rename, Struct.map, fields]
    simpa using own
  | binding head initial ih =>
    have own := shift initial.size (Nat.lt_succ_self _)
    have inner := ih fun place inside => shift place (Nat.lt_succ_of_lt inside)
    simp only [number, rename, inner, size_rename]
    simpa [BindingHead.map] using own
  | combine rule first second ihFirst ihSecond =>
    have left := ihFirst fun place inside => shift place (Nat.lt_add_right _ inside)
    have right := @ihSecond (start + first.size) (start' + first.size) fun place inside => by
      have later := shift (first.size + place) (Nat.add_lt_add_left inside _)
      rwa [← Nat.add_assoc, ← Nat.add_assoc] at later
    simp only [number, rename, left, right, size_rename]

/-- There is nothing to rename in a plan that is blank. -/
theorem IsBlank.rename_eq {plan : Plan} (blank : plan.IsBlank) : plan.rename σ = plan := by
  have types {type : Ty} (written : type.IsWritten) : type.rename σ = type := by
    refine Ty.mapNames_eq_self (written.unbound.mono ?_)
    rintro _ _ rfl
    rfl
  have members {members : List Member} (formed : ∀ member ∈ members, member.IsWellFormed) :
      members.map (Member.map σ (Ty.rename σ)) = members := by
    refine (List.map_congr_left fun member present => ?_).trans (List.map_id members)
    obtain ⟨binder, type, symbol⟩ := member
    obtain ⟨rfl, written⟩ := formed _ present
    simp [Member.map, Spanned.map, types written]
  have stated {type : Option Annotation} (written : ∀ annotated ∈ type, annotated.value.IsWritten) :
      type.map (Spanned.map (Ty.rename σ)) = type := by
    cases type with
    | none => rfl
    | some annotated => simp [Spanned.map, types (written annotated rfl)]
  have heads {head : ProcedureHead} (formed : head.IsWellFormed) : head.map σ (Ty.rename σ) = head := by
    obtain ⟨binder, parameters, isVariadic, result, isExternal, symbol⟩ := head
    obtain ⟨rfl, parametersFormed, resultWritten⟩ := formed
    simp only [ProcedureHead.map, members parametersFormed, stated resultWritten, Option.map_none]
  -- before numbers are given, no part of a plan has a symbol that could be renamed
  induction plan with
  | value => rfl
  | stated type => exact congrArg Plan.stated (types blank)
  | reference span name symbol => simp [rename, show symbol = none from blank]
  | field span target name ih => exact congrArg (Plan.field span · name) (ih blank)
  | expression span inner ih => exact congrArg (expression span) (ih blank)
  | external head => exact congrArg external (heads blank)
  | procedure head body ih => rw [rename, heads blank.1, ih blank.2]
  | struct declared =>
    obtain ⟨binder, fields, symbol⟩ := declared
    obtain ⟨rfl, fieldsFormed⟩ := blank
    simp only [rename, Struct.map, members fieldsFormed, Option.map_none]
  | binding head initial ih =>
    obtain ⟨kind, binder, type, symbol⟩ := head
    obtain ⟨⟨rfl, written⟩, inner⟩ := blank
    simp only [rename, BindingHead.map, stated written, ih inner, Option.map_none]
  | combine rule first second ihFirst ihSecond => rw [rename, ihFirst blank.1, ihSecond blank.2]

end Plan

end Cadence
