import Cadence.Proofs.Plan.Growth
import Mathlib.Logic.Function.Iterate

/-!
# Running a plan until it settles

A tree is walked over again as long as each walk leaves fewer deferred references than the one
before. If it is fixed what the fields of values are, this ends with types that one more walk does
not change, and with no more types than have to be known.
-/
namespace Cadence

namespace Plan

variable {layouts : Types → Ty → Layout} {layout : Ty → Layout} {plan : Plan} {plans : List Plan}
  {start types bound final : Types} {last : Outcome} {outcomes : List Outcome}

/-- The types of symbols behind a walk. -/
def step (layouts : Types → Ty → Layout) (plan : Plan) (types : Types) : Types :=
  (plan.run layouts types).types

/-- A walk over a tree, behind a number of others, is the last one: no reference is deferred, or not
fewer than in the walk before. -/
def EndsAt (layouts : Types → Ty → Layout) (plan : Plan) (start : Types) (count : Nat) : Prop :=
  let last := plan.run layouts ((plan.step layouts)^[count] start)
  last.deferred = 0 ∨ ∃ fewer, count = fewer + 1 ∧
    (plan.run layouts ((plan.step layouts)^[fewer] start)).deferred ≤ last.deferred

/-- The last one of the walks over a tree. -/
def Settles (layouts : Types → Ty → Layout) (plan : Plan) (start : Types) (last : Outcome) : Prop :=
  ∃ count, last = plan.run layouts ((plan.step layouts)^[count] start) ∧ plan.EndsAt layouts start count

/-- Several trees are walked over one after the other. -/
inductive SettleAll (layouts : Types → Ty → Layout) :
    List Plan → Types → List Outcome → Types → Prop
  | nil {types : Types} : SettleAll layouts [] types [] types
  | cons {plan : Plan} {plans : List Plan} {start final : Types} {last : Outcome}
      {outcomes : List Outcome} : plan.Settles layouts start last →
      SettleAll layouts plans last.types outcomes final →
      SettleAll layouts (plan :: plans) start (last :: outcomes) final

/-- The types with which the last walk over a tree starts. -/
def lastTypes (layouts : Types → Ty → Layout) (plan : Plan) (types : Types) : Types :=
  let first := plan.run layouts types
  if first.deferred = 0 then types
  else if (plan.run layouts first.types).deferred < first.deferred then
    plan.lastTypes layouts first.types
  else first.types
  termination_by (plan.run layouts types).deferred

/-- The last walk over a tree. -/
def lastRun (layouts : Types → Ty → Layout) (plan : Plan) (types : Types) : Outcome :=
  plan.run layouts (plan.lastTypes layouts types)

/-- The last walk over each of several trees, one after the other. -/
def lastRuns (layouts : Types → Ty → Layout) : List Plan → Types → List Outcome
  | [], _ => []
  | plan :: plans, types =>
    plan.lastRun layouts types :: lastRuns layouts plans (plan.lastRun layouts types).types

/-- The last walk over a tree starts where some others have ended. -/
theorem exists_lastTypes (layouts : Types → Ty → Layout) (plan : Plan) (types : Types) :
    ∃ count, plan.lastTypes layouts types = (plan.step layouts)^[count] types ∧
      plan.EndsAt layouts types count := by
  fun_induction lastTypes layouts plan types with
  | case1 types first nothing => exact ⟨0, rfl, .inl nothing⟩
  | case2 types first more less ih =>
    obtain ⟨count, same, ends⟩ := ih
    refine ⟨count + 1, same, ends.imp_right ?_⟩
    rintro ⟨fewer, rfl, further⟩
    exact ⟨fewer + 1, rfl, further⟩
  | case3 types first more less => exact ⟨1, rfl, .inr ⟨0, rfl, Nat.le_of_not_lt less⟩⟩

theorem settles_lastRun (layouts : Types → Ty → Layout) (plan : Plan) (types : Types) :
    plan.Settles layouts types (plan.lastRun layouts types) := by
  obtain ⟨count, same, ends⟩ := exists_lastTypes layouts plan types
  exact ⟨count, by rw [lastRun, same], ends⟩

/-- Another walk does not change types of symbols. -/
def IsSolved (layouts : Types → Ty → Layout) (plan : Plan) (types : Types) : Prop :=
  plan.step layouts types = types

theorem iterate_step_of_notMem (count : Nat) {index : SymbolIndex} (other : index ∉ plan.symbols) :
    ((plan.step layouts)^[count] start) index = start index := by
  induction count with
  | zero => rfl
  | succ count ih =>
    rw [Function.iterate_succ_apply', ← ih]
    exact plan.run_types_of_notMem other

theorem Settles.types_of_notMem (settles : plan.Settles layouts start last) {index : SymbolIndex}
    (other : index ∉ plan.symbols) : last.types index = start index := by
  obtain ⟨count, rfl, _⟩ := settles
  exact (plan.run_types_of_notMem other).trans (iterate_step_of_notMem count other)

/-- If a walk from some types finds out more, so does every further one. -/
theorem iterate_step_grow (grow : start.Grow (plan.step (fun _ => layout) start)) (count : Nat) :
    ((plan.step fun _ => layout)^[count] start).Grow
      ((plan.step fun _ => layout)^[count + 1] start) := by
  induction count with
  | zero => exact grow
  | succ count ih =>
    simp only [Function.iterate_succ_apply'] at ih ⊢
    exact (plan.run_grows layout ih).types

theorem grow_iterate_step (grow : start.Grow (plan.step (fun _ => layout) start)) (count : Nat) :
    start.Grow ((plan.step fun _ => layout)^[count] start) := by
  induction count with
  | zero => exact .refl _
  | succ count ih => exact ih.trans (iterate_step_grow grow count)

theorem Settles.grow (settles : plan.Settles (fun _ => layout) start last)
    (grow : start.Grow (plan.step (fun _ => layout) start)) : start.Grow last.types := by
  obtain ⟨count, rfl, _⟩ := settles
  have whole := grow_iterate_step grow (count + 1)
  rwa [Function.iterate_succ_apply'] at whole

/-- The number of deferred references tells whether another walk makes a difference. -/
theorem run_step_eq (grow : types.Grow (plan.step (fun _ => layout) types))
    (same : (plan.run (fun _ => layout) types).deferred ≤
      (plan.run (fun _ => layout) (plan.step (fun _ => layout) types)).deferred) :
    plan.run (fun _ => layout) (plan.step (fun _ => layout) types) =
      plan.run (fun _ => layout) types := by
  refine ((plan.run_agrees grow same).eq fun index other => ?_).symm
  rw [plan.run_types_of_notMem other, plan.run_types_of_notMem other]
  exact (plan.run_types_of_notMem other).symm

/-- Where the walks end, another one would come to the same. -/
theorem Settles.run_eq (settles : plan.Settles (fun _ => layout) start last)
    (grow : start.Grow (plan.step (fun _ => layout) start)) :
    plan.run (fun _ => layout) last.types = last := by
  obtain ⟨count, rfl, nothing | ⟨fewer, rfl, same⟩⟩ := settles
  -- nothing is left to be found out
  · have further := iterate_step_grow grow count
    rw [Function.iterate_succ_apply'] at further
    exact run_step_eq further (nothing ▸ Nat.zero_le _)
  -- the last walk did not make a difference, and so the next one does not either
  · have further := iterate_step_grow grow fewer
    rw [Function.iterate_succ_apply'] at further same ⊢
    have again := run_step_eq further same
    rw [again]
    exact again

/-- No more is found out than what has to be so. -/
theorem Settles.grow_bound (settles : plan.Settles (fun _ => layout) start last)
    (grow : start.Grow bound) (solved : plan.IsSolved (fun _ => layout) bound) :
    last.types.Grow bound ∧ last.missing ⊆ (plan.run (fun _ => layout) bound).missing := by
  obtain ⟨count, rfl, stops⟩ := settles
  clear stops
  have below : ((plan.step fun _ => layout)^[count] start).Grow bound := by
    induction count with
    | zero => exact grow
    | succ count ih =>
      rw [Function.iterate_succ_apply']
      have further := (plan.run_grows layout ih).types
      rwa [show (plan.run (fun _ => layout) bound).types = bound from solved] at further
  have runs := plan.run_grows layout below
  refine ⟨?_, runs.missing⟩
  have further := runs.types
  rwa [show (plan.run (fun _ => layout) bound).types = bound from solved] at further

theorem entries_sequence (plans : List Plan) :
    (sequence plans).entries = plans.flatMap entries := by
  induction plans with
  | nil => rfl
  | cons first rest ih => simp [sequence, entries, ih]

theorem symbols_sequence (plans : List Plan) :
    (sequence plans).symbols = plans.flatMap symbols := by
  rw [symbols, entries_sequence, List.map_flatMap]
  rfl

/-- If no walk over any of some trees changes anything, a walk over all of them does not. -/
theorem run_sequence (solved : ∀ plan ∈ plans, plan.IsSolved layouts types) :
    (sequence plans).IsSolved layouts types ∧
      ((sequence plans).run layouts types).findings =
        plans.flatMap (fun plan => (plan.run layouts types).findings) ∧
      ((sequence plans).run layouts types).missing =
        plans.flatMap fun plan => (plan.run layouts types).missing := by
  induction plans with
  | nil => exact ⟨rfl, rfl, rfl⟩
  | cons first rest ih =>
    simp only [List.mem_cons, forall_eq_or_imp] at solved
    obtain ⟨others, findings, missing⟩ := ih solved.2
    have own : (first.run layouts types).types = types := solved.1
    refine ⟨?_, ?_, ?_⟩
    · simpa only [IsSolved, step, sequence, run, Outcome.combine, own] using others
    · simp only [sequence, run, Outcome.combine, own, findings, List.flatMap_cons]
    · simp only [sequence, run, Outcome.combine, own, missing, List.flatMap_cons]

/-- If a walk over some trees does not change anything, neither does a walk over any of them. -/
theorem IsSolved.of_sequence (distinct : (plans.flatMap symbols).Nodup)
    (solved : (sequence plans).IsSolved layouts types) :
    ∀ plan ∈ plans, plan.IsSolved layouts types := by
  induction plans with
  | nil => simp
  | cons first rest ih =>
    rw [List.flatMap_cons, List.nodup_append'] at distinct
    have whole : ((sequence rest).run layouts (first.run layouts types).types).types = types := solved
    -- what the first one records is not recorded again
    have own : (first.run layouts types).types = types := by
      funext index
      by_cases member : index ∈ first.symbols
      · have kept : ((sequence rest).run layouts (first.run layouts types).types).types index =
            (first.run layouts types).types index := by
          refine (sequence rest).run_types_of_notMem ?_
          rw [symbols_sequence]
          exact fun again => distinct.2.2 member again
        rw [← kept, whole]
      · exact first.run_types_of_notMem member
    rw [own] at whole
    exact List.forall_mem_cons.mpr ⟨own, ih distinct.2.1 whole⟩

/-- Nothing but what is written down is known yet about the symbols that are declared. -/
def IsFresh (plan : Plan) (types : Types) : Prop := ∀ entry ∈ plan.entries, types entry.1 = entry.2

/-- The first walk does not lose what is written down. -/
theorem IsFresh.grow_step (fresh : plan.IsFresh start) (distinct : plan.symbols.Nodup) :
    start.Grow (plan.step layouts start) := by
  intro index type known
  by_cases declared : index ∈ plan.symbols
  · obtain ⟨⟨_, written⟩, member, rfl⟩ := List.mem_map.mp declared
    obtain rfl : written = some type := (fresh _ member).symm.trans known
    exact plan.run_types_of_written distinct member
  · exact (plan.run_types_of_notMem declared).trans known

/-- The declarations of further trees stay fresh while a tree is walked over. -/
theorem Settles.isFresh (settles : plan.Settles layouts start last) {other : Plan}
    (distinct : plan.symbols.Disjoint other.symbols) (fresh : other.IsFresh start) :
    other.IsFresh last.types := fun entry member =>
  have declared : entry.1 ∈ other.symbols := List.mem_map_of_mem member
  (settles.types_of_notMem fun again => distinct again declared).trans (fresh entry member)

theorem run_grow_of_recorded (grow : types.Grow final)
    (recorded : ∀ index ∈ plan.symbols, (plan.run layouts types).types index = final index) :
    (plan.run layouts types).types.Grow final := by
  intro index
  by_cases member : index ∈ plan.symbols
  · rw [recorded index member]
    exact .refl _
  · rw [plan.run_types_of_notMem member]
    exact grow index

/-- A walk that records what is known in the end, and leaves only those references without a type
that have none in the end, finds out what a walk does that starts from the types in the end. -/
theorem run_of_settled (plan : Plan) (distinct : plan.symbols.Nodup) (grow : types.Grow final)
    (silent : ∀ finding ∈ (plan.run (fun _ => layout) types).findings, ∀ index,
      finding.usage = .reference (some index) → finding.type = none → final index = none)
    (recorded : ∀ index ∈ plan.symbols,
      (plan.run (fun _ => layout) types).types index = final index) :
    plan.run (fun _ => layout) final =
      { plan.run (fun _ => layout) types with types := final } := by
  induction plan generalizing types with
  | value | stated => rfl
  | reference span name symbol =>
    -- a reference that has no type in this walk has none in the end, by `silent`
    have known : symbol.bind types = symbol.bind final := by
      cases symbol with
      | none => rfl
      | some index =>
        cases former : types index with
        | some type => simp [former, Option.mem_def.mp (grow index type former)]
        | none =>
          have latter := silent _ (List.mem_singleton_self _) index rfl former
          simp [former, latter]
    simp [run, known]
  | field span target name ih =>
    have inner := ih distinct grow
      (fun finding member => silent finding (List.mem_append_left _ member)) recorded
    simp [run, inner, Outcome.access]
  | expression span inner ih =>
    have inner := ih distinct grow
      (fun finding member => silent finding (List.mem_append_left _ member)) recorded
    simp [run, inner, Outcome.finding]
  | external head =>
    have known : final.record head.entries = final := Types.record_eq_self recorded
    simp [run, Outcome.plain, known]
  | procedure head body ih =>
    rw [symbols_procedure, List.nodup_append'] at distinct
    simp only [symbols_procedure, List.mem_append] at recorded
    -- the body does not record what the head does, so the head records what is known in the end
    have heads (index : SymbolIndex)
        (member : index ∈ (head.entries ++ Member.entries head.parameters).map Prod.fst) :
        types.record (head.entries ++ Member.entries head.parameters) index = final index := by
      rw [← recorded index (.inl member)]
      exact (body.run_types_of_notMem fun again => distinct.2.2 member again).symm
    have entered : (types.record (head.entries ++ Member.entries head.parameters)).Grow final := by
      have further := grow.record (head.entries ++ Member.entries head.parameters)
      rwa [Types.record_eq_self heads] at further
    have inner := ih distinct.2.1 entered silent fun index member => recorded index (.inr member)
    simp [run, Types.record_eq_self heads, inner, Outcome.declaring]
  | struct declared =>
    have known : final.record (Member.entries declared.fields ++ declared.entries) = final :=
      Types.record_eq_self recorded
    simp [run, Outcome.plain, known]
  | binding head initial ih =>
    rw [symbols_binding, List.nodup_append'] at distinct
    simp only [symbols_binding, List.mem_append] at recorded
    have inner := ih distinct.1 grow silent fun index member => by
      rw [← recorded index (.inl member)]
      refine (Types.record_of_notMem fun again => distinct.2.2 member ?_).symm
      simpa using again
    have own : final.record (head.entries (initial.run (fun _ => layout) types).type) = final :=
      Types.record_eq_self fun index member => recorded index (.inr (by simpa using member))
    simp [run, inner, Outcome.declaring, own]
  | combine rule first second ihFirst ihSecond =>
    rw [symbols_combine, List.nodup_append'] at distinct
    simp only [symbols_combine, List.mem_append] at recorded
    -- the second part does not change what the first one records
    have inFirst (index : SymbolIndex) (member : index ∈ first.symbols) :
        (first.run (fun _ => layout) types).types index = final index := by
      rw [← recorded index (.inl member)]
      exact (second.run_types_of_notMem fun again => distinct.2.2 member again).symm
    have left := ihFirst distinct.1 grow
      (fun finding member => silent finding (List.mem_append_left _ member)) inFirst
    have right := ihSecond distinct.2.1 (run_grow_of_recorded grow inFirst)
      (fun finding member => silent finding (List.mem_append_right _ member))
      (fun index member => recorded index (.inr member))
    simp [run, left, right, Outcome.combine]

theorem SettleAll.types_of_notMem (settle : SettleAll layouts plans start outcomes final)
    {index : SymbolIndex} (other : index ∉ plans.flatMap symbols) : final index = start index := by
  induction settle with
  | nil => rfl
  | cons first rest ih =>
    simp only [List.flatMap_cons, List.mem_append, not_or] at other
    exact (ih other.2).trans (first.types_of_notMem other.1)

/-- What is written down is recorded in the end. -/
theorem SettleAll.types_of_written (settle : SettleAll layouts plans start outcomes final)
    (distinct : (plans.flatMap symbols).Nodup) {index : SymbolIndex} {type : Ty}
    (written : (index, some type) ∈ plans.flatMap entries) : final index = some type := by
  induction settle with
  | nil => cases written
  | @cons plan plans start final last outcomes first rest ih =>
    rw [List.flatMap_cons, List.nodup_append'] at distinct
    rcases List.mem_append.mp written with own | later
    · have declared : index ∈ plan.symbols := List.mem_map_of_mem (f := Prod.fst) own
      rw [rest.types_of_notMem fun again => distinct.2.2 declared again]
      obtain ⟨count, rfl, _⟩ := first
      exact plan.run_types_of_written distinct.1 own
    · exact ih distinct.2.1 later

namespace SettleAll

variable (settle : SettleAll (fun _ => layout) plans start outcomes final)
include settle

/-- No more is found out than what has to be so. -/
theorem grow_bound (grow : start.Grow bound)
    (solved : ∀ plan ∈ plans, plan.IsSolved (fun _ => layout) bound) :
    final.Grow bound ∧ List.Forall₂
      (fun plan last => last.missing ⊆ (plan.run (fun _ => layout) bound).missing)
        plans outcomes := by
  induction settle with
  | nil => exact ⟨grow, .nil⟩
  | cons first rest ih =>
    simp only [List.mem_cons, forall_eq_or_imp] at solved
    obtain ⟨below, missing⟩ := first.grow_bound grow solved.1
    obtain ⟨final, others⟩ := ih below solved.2
    exact ⟨final, .cons missing others⟩

variable (distinct : (plans.flatMap symbols).Nodup) (fresh : ∀ plan ∈ plans, plan.IsFresh start)
include distinct fresh

theorem grow : start.Grow final := by
  induction settle with
  | nil => exact .refl _
  | cons first rest ih =>
    simp only [List.mem_cons, forall_eq_or_imp] at fresh
    rw [List.flatMap_cons, List.nodup_append'] at distinct
    have further := first.grow (fresh.1.grow_step distinct.1)
    refine further.trans (ih distinct.2.1 fun other member =>
      first.isFresh (fun index own declared => ?_) (fresh.2 other member))
    exact distinct.2.2 own (List.mem_flatMap.mpr ⟨other, member, declared⟩)

/-- If no reference was left without a type that was found out later, another walk over any of the
trees does not change anything. -/
theorem solves (silent : ∀ last ∈ outcomes, ∀ finding ∈ last.findings, ∀ index,
      finding.usage = .reference (some index) → finding.type = none → final index = none) :
    List.Forall₂ (fun plan last => plan.run (fun _ => layout) final = { last with types := final })
      plans outcomes := by
  induction settle with
  | nil => exact .nil
  | @cons plan plans start final last outcomes first rest ih =>
    simp only [List.mem_cons, forall_eq_or_imp] at fresh silent
    rw [List.flatMap_cons, List.nodup_append'] at distinct
    have restFresh (other : Plan) (member : other ∈ plans) : other.IsFresh last.types := by
      refine first.isFresh (fun index own declared => ?_) (fresh.2 other member)
      exact distinct.2.2 own (List.mem_flatMap.mpr ⟨other, member, declared⟩)
    refine .cons ?_ (ih distinct.2.1 restFresh silent.2)
    have further := rest.grow distinct.2.1 restFresh
    have settled := first.run_eq (fresh.1.grow_step distinct.1)
    have whole : plan.run (fun _ => layout) final =
        { plan.run (fun _ => layout) last.types with types := final } := by
      refine plan.run_of_settled distinct.1 further (by rw [settled]; exact silent.1)
        fun index member => ?_
      rw [settled]
      exact (rest.types_of_notMem fun again => distinct.2.2 member again).symm
    rw [whole, settled]

end SettleAll

end Plan

end Cadence
