import Cadence.Proofs.Plan.Renaming
import Cadence.Proofs.Plan.Scope
import Cadence.Proofs.Plan.Settling

/-!
# Names that were not looked up yet

As long as a declaration was not walked over, the names in its type record nothing. They are read as
global structs all the same. If that is what they turn out to be, it makes no difference to walk with
all types of declarations completed from the start, and what the fields of values are never changes.
-/
namespace Cadence

variable {globals : String → Option SymbolIndex}

/-- The type in which names that record nothing are those of global structs. -/
def Ty.complete (globals : String → Option SymbolIndex) : Ty → Ty :=
  Ty.mapNames fun path symbol => symbol.or (globals path.value)

/-- A symbol of a struct. -/
def Types.HasStruct (types : Types) (symbol : Option SymbolIndex) : Prop :=
  ∃ index name fields, symbol = some index ∧ types index = some (.struct name fields)

/-- The name records a struct. -/
def Types.NamesStruct (written : Types) (_ : Identifier) (symbol : Option SymbolIndex) : Prop :=
  written.HasStruct symbol

/-- The name records a struct, or nothing and then it is that of a global struct. -/
def Types.MeansStruct (written : Types) (globals : String → Option SymbolIndex) (path : Identifier)
    (symbol : Option SymbolIndex) : Prop :=
  written.HasStruct (symbol.or (globals path.value))

theorem Types.NamesStruct.means {written : Types} {path : Identifier} {symbol : Option SymbolIndex}
    (names : written.NamesStruct path symbol) : written.MeansStruct globals path symbol := by
  obtain ⟨index, name, fields, rfl, known⟩ := names
  exact ⟨index, name, fields, rfl, known⟩

/-- There is nothing to complete where all names record something. -/
theorem Ty.complete_eq_self {written : Types} {type : Ty}
    (names : type.AllNames written.NamesStruct) : type.complete globals = type := by
  refine mapNames_eq_self (names.mono ?_)
  rintro path _ ⟨index, _, _, rfl, _⟩
  rfl

section

variable {known : Set SymbolIndex} {written types completed : Types}

/-- The types of the symbols that are known are completed. -/
def Types.CompletedBy (types : Types) (globals : String → Option SymbolIndex)
    (known : Set SymbolIndex) (completed : Types) : Prop :=
  ∀ index ∈ known, completed index = (types index).map (Ty.complete globals)

theorem Types.CompletedBy.record (completes : types.CompletedBy globals known completed)
    (entries : List (SymbolIndex × Option Ty)) :
    (types.record entries).CompletedBy globals (knownBehind known entries)
      (completed.record (mapEntries id (Ty.complete globals) entries)) := by
  induction entries generalizing known types completed with
  | nil => simpa [mapEntries] using completes
  | cons first rest ih =>
    rw [← List.singleton_append, knownBehind_append]
    refine ih (fun index inside => ?_)
    by_cases own : index = first.1
    · subst own
      simp
    · have old : index ∈ known := inside.resolve_right (by simpa using own)
      simpa [Function.update_of_ne own] using completes index old

/-- What is written down need not be completed. -/
theorem mapEntries_complete {entries : List (SymbolIndex × Option Ty)}
    (names : ∀ entry ∈ entries, ∀ type ∈ entry.2, type.AllNames written.NamesStruct) :
    mapEntries id (Ty.complete globals) entries = entries := by
  refine (List.map_congr_left fun entry member => ?_).trans (List.map_id entries)
  obtain ⟨index, type⟩ := entry
  cases type with
  | none => rfl
  | some type => exact congrArg (fun type => (index, some type)) (Ty.complete_eq_self (names _ member type rfl))

theorem BindingHead.map_complete_eq_self {head : BindingHead}
    (names : head.AllTypes (Ty.AllNames written.NamesStruct)) :
    head.map id (Ty.complete globals) = head := by
  obtain ⟨kind, binder, type, symbol⟩ := head
  cases type with
  | none => simp [BindingHead.map]
  | some annotated =>
    have same : annotated.value.complete globals = annotated.value :=
      Ty.complete_eq_self (names annotated rfl)
    simp [BindingHead.map, Spanned.map, same]

/-- The fields of the values of a type are those that are written down for its struct. -/
theorem layout_complete (completes : types.CompletedBy globals known completed)
    (keeps : written.Grow completed) (global : ∀ name, ∀ index ∈ globals name, index ∈ known)
    {type : Ty}
    (grounded : type.Grounded known (written.MeansStruct globals)) :
    written.layout globals (type.complete globals) = (types.layout globals type).mapNames
      fun path symbol => symbol.or (globals path.value) := by
  cases type with
  | struct | builtin | pointer | procedure => rfl
  | named path symbol =>
    obtain ⟨inside, index, name, fields, chosen, declared⟩ := grounded
    have present : index ∈ known := by
      rcases Option.or_eq_some_iff.mp chosen with own | ⟨_, global'⟩
      · exact inside index own
      · exact global path.value index global'
    have same := completes index present
    rw [Option.mem_def.mp (keeps index _ declared)] at same
    simp only [Ty.complete, Ty.mapNames, Types.layout, chosen, Option.some_or, declared, same,
      ← Layout.ofDeclared_map]

end

/-- What is written down stays if it is recorded. -/
theorem Types.Grow.keep_record {written types : Types} {entries : List (SymbolIndex × Option Ty)}
    (keeps : written.Grow types) (same : ∀ entry ∈ entries, Grows (written entry.1) entry.2) :
    written.Grow (types.record entries) := by
  intro index
  by_cases member : index ∈ entries.map Prod.fst
  · exact same _ (Types.exists_mem_of_record member)
  · rw [Types.record_of_notMem member]
    exact keeps index

namespace Plan

variable {plan : Plan} {known : Set SymbolIndex} {written types completed : Types}

/-- What is written down is not lost. -/
theorem IsFresh.keeps {layouts : Types → Ty → Layout} (fresh : plan.IsFresh written)
    (keeps : written.Grow types) : written.Grow (plan.run layouts types).types := by
  induction plan generalizing types with
  | value | stated | reference => exact keeps
  | field span target name ih => exact ih fresh keeps
  | expression span inner ih => exact ih fresh keeps
  | external head => exact keeps.keep_record fun entry member => fresh entry member ▸ .refl _
  | procedure head body ih =>
    obtain ⟨heads, inBody⟩ := List.forall_mem_append.mp fresh
    exact ih inBody (keeps.keep_record fun entry member => heads entry member ▸ .refl _)
  | struct declared => exact keeps.keep_record fun entry member => fresh entry member ▸ .refl _
  | binding head initial ih =>
    obtain ⟨inInitial, own⟩ := List.forall_mem_append.mp fresh
    refine (ih inInitial keeps).keep_record fun entry member => ?_
    obtain ⟨symbol, type⟩ := mem_entryOf.mp member
    rw [own (entry.1, head.type.map Spanned.value) (mem_entryOf.mpr ⟨symbol, by simp⟩), ← type]
    cases head.type with
    | none => simp [Grows]
    | some type => exact .refl _
  | combine rule first second ihFirst ihSecond =>
    obtain ⟨inFirst, inSecond⟩ := List.forall_mem_append.mp fresh
    exact ihSecond inSecond (ihFirst inFirst keeps)

/-- A walk over a plan can be made with completed types as well: what is written down is known to it, and
it only gets hold of symbols whose types were completed. -/
structure IsCompletable (globals : String → Option SymbolIndex) (written : Types)
    (known : Set SymbolIndex) (plan : Plan) (types completed : Types) : Prop where
  fits : plan.WellScoped written.NamesStruct known
  fresh : plan.IsFresh written
  keeps : written.Grow completed
  global : ∀ name, ∀ index ∈ globals name, index ∈ known
  sound : types.Grounded known (written.MeansStruct globals)
  completes : types.CompletedBy globals known completed

/-- A walk with completed types finds out the same, only completed. -/
structure Completed (globals : String → Option SymbolIndex) (known : Set SymbolIndex)
    (outcome completed : Outcome) : Prop where
  types : outcome.types.CompletedBy globals known completed.types
  type : completed.type = outcome.type.map (Ty.complete globals)
  findings : completed.findings = outcome.findings.map (Finding.map id (Ty.complete globals))
  missing : completed.missing = outcome.missing

/-- If the layout of what a field is asked of is only completed, then so is what is found out about the
field. -/
theorem Completed.access {outcome completed : Outcome}
    (inner : Completed globals known outcome completed)
    (layouts : ∀ type ∈ outcome.type, written.layout globals (type.complete globals) =
      (outcome.types.layout globals type).mapNames fun path symbol => symbol.or (globals path.value))
    (span : Source.Span) (name : Identifier) :
    Completed globals known (outcome.access (Types.layout globals) span name)
      (completed.access (fun _ => written.layout globals) span name) := by
  have layoutOf : completed.type.elim .unknown (written.layout globals) =
      (outcome.type.elim .unknown (outcome.types.layout globals)).mapNames
        fun path symbol => symbol.or (globals path.value) := by
    rw [inner.type]
    cases target : outcome.type with
    | none => rfl
    | some type => exact layouts type target
  refine ⟨inner.types, ?_, ?_, ?_⟩
  · simp only [Outcome.access, layoutOf, Layout.fieldType?_mapNames]
    rfl
  · simp only [Outcome.access, layoutOf, Layout.fieldType?_mapNames, List.map_append]
    rw [inner.findings, inner.type]
    rfl
  · simp only [Outcome.access, layoutOf, inner.missing, Layout.missing_mapNames]

namespace IsCompletable

theorem grounded (completable : IsCompletable globals written known plan types completed) :
    (plan.run (Types.layout globals) types).Grounded (knownBehind known plan.entries)
      (written.MeansStruct globals) :=
  (completable.fits.mono (fun _ => id) fun _ _ => Types.NamesStruct.means).run_grounded completable.global
    completable.sound

/-- The body of a procedure is walked over behind its head. -/
theorem body {head : ProcedureHead} {body : Plan}
    (completable : IsCompletable globals written known (.procedure head body) types completed) :
    IsCompletable globals written (knownBehind known (head.entries ++ Member.entries head.parameters)) body
      (types.record (head.entries ++ Member.entries head.parameters))
      (completed.record (head.entries ++ Member.entries head.parameters)) := by
  obtain ⟨fits, fresh, keeps, global, sound, completes⟩ := completable
  obtain ⟨heads, inBody⟩ := List.forall_mem_append.mp fresh
  have own := ProcedureHead.allNames_allEntries fits.1
  have recorded := completes.record (head.entries ++ Member.entries head.parameters)
  rw [mapEntries_complete fun entry member type found => Ty.Grounded.allNames (own entry member type found)]
    at recorded
  exact {
    fits := fits.2
    fresh := inBody
    keeps := keeps.keep_record fun entry member => heads entry member ▸ .refl _
    global := fun name index bound => subset_knownBehind _ (global name index bound)
    sound := sound.record fun entry member type found =>
      Ty.Grounded.mono (own entry member type found) (fun _ => id) fun _ _ => Types.NamesStruct.means
    completes := recorded }

theorem initial {head : BindingHead} {initial : Plan}
    (completable : IsCompletable globals written known (.binding head initial) types completed) :
    IsCompletable globals written known initial types completed :=
  { completable with
    fits := completable.fits.2
    fresh := (List.forall_mem_append.mp completable.fresh).1 }

theorem first {rule : Rule} {first second : Plan}
    (completable : IsCompletable globals written known (.combine rule first second) types completed) :
    IsCompletable globals written known first types completed :=
  { completable with
    fits := completable.fits.1
    fresh := (List.forall_mem_append.mp completable.fresh).1 }

/-- The second part is walked over behind the first one. -/
theorem second {rule : Rule} {first second : Plan}
    (completable : IsCompletable globals written known (.combine rule first second) types completed)
    (left : Completed globals (knownBehind known first.entries) (first.run (Types.layout globals) types)
      (first.run (fun _ => written.layout globals) completed)) :
    IsCompletable globals written (knownBehind known first.entries) second
      (first.run (Types.layout globals) types).types
      (first.run (fun _ => written.layout globals) completed).types where
  fits := completable.fits.2
  fresh := (List.forall_mem_append.mp completable.fresh).2
  keeps := completable.first.fresh.keeps completable.keeps
  global := fun name index bound => subset_knownBehind _ (completable.global name index bound)
  sound := completable.first.grounded.types
  completes := left.types

/-- The fields of the values of what a plan comes to are those that are written down. -/
theorem layout (completable : IsCompletable globals written known plan types completed)
    (inner : Completed globals (knownBehind known plan.entries) (plan.run (Types.layout globals) types)
      (plan.run (fun _ => written.layout globals) completed)) :
    ∀ type ∈ (plan.run (Types.layout globals) types).type,
      written.layout globals (type.complete globals) =
        (Types.layout globals (plan.run (Types.layout globals) types).types type).mapNames
          fun path symbol => symbol.or (globals path.value) := by
  intro type known
  exact layout_complete inner.types (completable.fresh.keeps completable.keeps)
    (fun name index bound => subset_knownBehind _ (completable.global name index bound))
    (completable.grounded.type type known)

theorem run_completed (completable : IsCompletable globals written known plan types completed) :
    Completed globals (knownBehind known plan.entries) (plan.run (Types.layout globals) types)
      (plan.run (fun _ => written.layout globals) completed) := by
  induction plan generalizing known types completed with
  | value type =>
    have same : type.map (Ty.complete globals) = type := by
      cases type with
      | none => rfl
      | some type => exact congrArg some (Ty.complete_eq_self (completable.fits type rfl).allNames)
    refine ⟨?_, same.symm, rfl, rfl⟩
    rw [entries, knownBehind_nil]
    exact completable.completes
  | stated type =>
    refine ⟨?_, congrArg some (Ty.complete_eq_self completable.fits.allNames).symm, rfl, rfl⟩
    rw [entries, knownBehind_nil]
    exact completable.completes
  | reference span name symbol =>
    have found : symbol.bind completed = (symbol.bind types).map (Ty.complete globals) := by
      cases symbol with
      | none => rfl
      | some index => exact completable.completes index (completable.fits index rfl)
    refine ⟨?_, found, by simp [run, found, Finding.map, Usage.map], rfl⟩
    rw [entries, knownBehind_nil]
    exact completable.completes
  | field span target name ih =>
    have inTarget : IsCompletable globals written known target types completed := { completable with }
    have inner := ih inTarget
    exact inner.access (inTarget.layout inner) span name
  | expression span inner ih =>
    have inner := ih { completable with }
    refine ⟨inner.types, inner.type, ?_, inner.missing⟩
    simp [run, Outcome.finding, inner.findings, inner.type, Finding.map, Usage.map]
  | external head =>
    have recorded := completable.completes.record head.entries
    rw [mapEntries_complete fun entry member type found => Ty.Grounded.allNames
      (ProcedureHead.allNames_entries completable.fits entry member type found)] at recorded
    exact ⟨recorded, rfl, rfl, rfl⟩
  | procedure head body ih =>
    have inner := ih completable.body
    rw [← knownBehind_append] at inner
    exact ⟨inner.types, rfl, inner.findings, inner.missing⟩
  | struct declared =>
    have recorded := completable.completes.record (Member.entries declared.fields ++ declared.entries)
    rw [mapEntries_complete fun entry member type found =>
      Ty.Grounded.allNames (Struct.allNames_allEntries completable.fits entry member type found)] at recorded
    exact ⟨recorded, rfl, rfl, rfl⟩
  | binding head initial ih =>
    have inner := ih completable.initial
    -- a type that is written down is complete, and one that is found out is completed by now
    have same : head.map id (Ty.complete globals) = head :=
      BindingHead.map_complete_eq_self fun annotated present =>
        (completable.fits.1 annotated present).allNames
    have recorded := inner.types.record (head.entries (initial.run (Types.layout globals) types).type)
    rw [← BindingHead.entries_map, ← inner.type, same] at recorded
    rw [knownBehind_binding head initial (initial.run (Types.layout globals) types).type]
    exact ⟨recorded, rfl, inner.findings, inner.missing⟩
  | combine rule first second ihFirst ihSecond =>
    have left := ihFirst completable.first
    have right := ihSecond (completable.second left)
    rw [← knownBehind_append] at right
    refine ⟨right.types, ?_, ?_, ?_⟩
    · simp only [run, Outcome.combine, left.type, right.type]
      exact rule.type_mapNames _ _
    · simp only [run, Outcome.combine, left.findings, right.findings, List.map_append]
    · simp only [run, Outcome.combine, left.missing, right.missing]

end IsCompletable

variable {plans : List Plan} {start final : Types} {last : Outcome} {outcomes : List Outcome}

theorem IsCompletable.iterate (completable : IsCompletable globals written known plan start completed)
    (count : Nat) :
    ∃ wider, known ⊆ wider ∧ wider ⊆ knownBehind known plan.entries ∧
      IsCompletable globals written wider plan ((plan.step (Types.layout globals))^[count] start)
        ((plan.step fun _ => written.layout globals)^[count] completed) := by
  induction count with
  | zero => exact ⟨known, fun _ => id, subset_knownBehind _, completable⟩
  | succ count ih =>
    obtain ⟨wider, more, less, again⟩ := ih
    have known := again.run_completed.types
    have grounded := again.grounded.types
    rw [knownBehind_eq more less] at known grounded
    simp only [Function.iterate_succ_apply']
    refine ⟨_, subset_knownBehind _, fun _ => id, ?_⟩
    exact {
      fits := completable.fits.mono (subset_knownBehind _) fun _ _ => id
      fresh := completable.fresh
      keeps := completable.fresh.keeps again.keeps
      global := fun name index bound => subset_knownBehind _ (completable.global name index bound)
      sound := grounded
      completes := known }

/-- Each of the walks over a tree finds out the same with completed types. -/
theorem IsCompletable.walks (completable : IsCompletable globals written known plan start completed)
    (count : Nat) : Completed globals (knownBehind known plan.entries)
      (plan.run (Types.layout globals) ((plan.step (Types.layout globals))^[count] start))
      (plan.run (fun _ => written.layout globals)
        ((plan.step fun _ => written.layout globals)^[count] completed)) := by
  obtain ⟨wider, more, less, again⟩ := completable.iterate count
  rw [← knownBehind_eq more less]
  exact again.run_completed

/-- What is found out about the expressions of a tree is completed. -/
def FindsCompleted (globals : String → Option SymbolIndex) (outcome completed : Outcome) : Prop :=
  completed.findings = outcome.findings.map (Finding.map id (Ty.complete globals)) ∧
    completed.missing = outcome.missing

theorem FindsCompleted.deferred {outcome completed : Outcome}
    (finds : FindsCompleted globals outcome completed) : completed.deferred = outcome.deferred := by
  have same : Finding.isDeferred ∘ Finding.map id (Ty.complete globals) = Finding.isDeferred :=
    funext fun finding => finding.isDeferred_map id _
  rw [Outcome.deferred, finds.1, List.countP_map, same]
  rfl

/-- The walks with completed types end when those without do. -/
theorem IsCompletable.endsAt (completable : IsCompletable globals written known plan start completed)
    {count : Nat} (ends : plan.EndsAt (Types.layout globals) start count) :
    plan.EndsAt (fun _ => written.layout globals) completed count := by
  have finds (count : Nat) : FindsCompleted globals _ _ :=
    ⟨(completable.walks count).findings, (completable.walks count).missing⟩
  rw [EndsAt, (finds count).deferred]
  refine ends.imp_right fun ⟨fewer, next, same⟩ => ⟨fewer, next, ?_⟩
  rwa [(finds fewer).deferred]

theorem Settles.exists_completed (settles : plan.Settles (Types.layout globals) start last)
    (completable : IsCompletable globals written known plan start completed) :
    ∃ last', plan.Settles (fun _ => written.layout globals) completed last' ∧
      written.Grow last'.types ∧ FindsCompleted globals last last' ∧
      last.types.CompletedBy globals (knownBehind known plan.entries) last'.types := by
  obtain ⟨count, rfl, ends⟩ := settles
  obtain ⟨_, _, _, again⟩ := completable.iterate count
  have same := completable.walks count
  exact ⟨_, ⟨count, rfl, completable.endsAt ends⟩, completable.fresh.keeps again.keeps,
    ⟨same.findings, same.missing⟩, same.types⟩

theorem SettleAll.exists_completed (settle : SettleAll (Types.layout globals) plans start outcomes final)
    (fits : (sequence plans).WellScoped written.NamesStruct known)
    (fresh : ∀ plan ∈ plans, plan.IsFresh written) (keeps : written.Grow completed)
    (global : ∀ name, ∀ index ∈ globals name, index ∈ known)
    (sound : start.Grounded known (written.MeansStruct globals))
    (completes : start.CompletedBy globals known completed) :
    ∃ outcomes' final', SettleAll (fun _ => written.layout globals) plans completed outcomes' final' ∧
      List.Forall₂ (FindsCompleted globals) outcomes outcomes' ∧
      final.CompletedBy globals (knownBehind known (sequence plans).entries) final' := by
  induction settle generalizing known completed with
  | nil => exact ⟨[], completed, .nil, .nil, by simpa [sequence, entries] using completes⟩
  | cons first rest ih =>
    simp only [List.mem_cons, forall_eq_or_imp] at fresh
    obtain ⟨last', settles, keeps', finds, completes'⟩ :=
      first.exists_completed ⟨fits.1, fresh.1, keeps, global, sound, completes⟩
    have grounded := first.grounded (fits.1.mono (fun _ => id) fun _ _ => Types.NamesStruct.means)
      global sound
    obtain ⟨outcomes', final', settle, others, completes'⟩ := ih fits.2 fresh.2 keeps'
      (fun name index bound => subset_knownBehind _ (global name index bound)) grounded.types
      completes'
    refine ⟨last' :: outcomes', final', .cons settles settle, .cons finds others, ?_⟩
    simpa only [sequence, entries, knownBehind_append] using completes'

end Plan

end Cadence
