import Cadence.Proofs.Plan.Numbering

/-!
# Plans in another order

If some plans are put into another order, each of them is given another block of symbols. Exchanging
the blocks makes up for this. Two neighbours exchange their blocks, and every other order comes about
by exchanging neighbours.
-/
namespace Cadence

/-- The place of a number behind two neighbouring blocks have changed places. -/
def exchange (start first second value : Nat) : Nat :=
  if value < start then value
  else if value < start + first then value + second
  else if value < start + first + second then value - first
  else value

theorem exchange_exchange (start first second value : Nat) :
    exchange start second first (exchange start first second value) = value := by
  simp only [exchange]
  split_ifs <;> omega

/-- Two neighbouring blocks of symbols change places. -/
def exchangeBlocks (start first second : Nat) : Equiv.Perm SymbolIndex where
  toFun index := ⟨exchange start first second index.value⟩
  invFun index := ⟨exchange start second first index.value⟩
  left_inv _ := congrArg SymbolIndex.mk (exchange_exchange _ _ _ _)
  right_inv _ := congrArg SymbolIndex.mk (exchange_exchange _ _ _ _)

section Blocks

variable (start first second : Nat) {place : Nat}

theorem exchangeBlocks_before (before : place < start) :
    exchangeBlocks start first second ⟨place⟩ = ⟨place⟩ :=
  congrArg SymbolIndex.mk (if_pos before)

theorem exchangeBlocks_first (inside : place < first) :
    exchangeBlocks start first second ⟨start + place⟩ = ⟨start + second + place⟩ := by
  have moved : exchange start first second (start + place) = start + second + place := by
    simp only [exchange]
    split_ifs <;> omega
  exact congrArg SymbolIndex.mk moved

theorem exchangeBlocks_second (inside : place < second) :
    exchangeBlocks start first second ⟨start + first + place⟩ = ⟨start + place⟩ := by
  have moved : exchange start first second (start + first + place) = start + place := by
    simp only [exchange]
    split_ifs <;> omega
  exact congrArg SymbolIndex.mk moved

theorem exchangeBlocks_behind (behind : start + first + second ≤ place) :
    exchangeBlocks start first second ⟨place⟩ = ⟨place⟩ := by
  have kept : exchange start first second place = place := by
    simp only [exchange]
    split_ifs <;> omega
  exact congrArg SymbolIndex.mk kept

end Blocks

/-- What is paired with items in another order is itself in another order. -/
theorem perm_of_zip {α β : Type} {items items' : List α} {paired paired' : List β}
    (perm : (items'.zip paired').Perm (items.zip paired)) (length : paired.length ≤ items.length)
    (length' : paired'.length ≤ items'.length) : paired'.Perm paired := by
  have seconds := perm.map Prod.snd
  rwa [List.map_snd_zip length, List.map_snd_zip length'] at seconds

namespace Plan

variable {start start' : Nat} {σ : SymbolIndex → SymbolIndex}

/-- A plan as it is parsed, with symbols from a block on, is renamed by renaming the block. -/
theorem IsBlank.rename_number {plan : Plan} (blank : plan.IsBlank)
    (shift : ∀ place < plan.size, σ ⟨start + place⟩ = ⟨start' + place⟩) :
    (plan.number start).rename σ = plan.number start' := by
  rw [Plan.rename_number plan shift, blank.rename_eq]

theorem map_rename_numberAll {plans : List Plan} (blank : ∀ plan ∈ plans, plan.IsBlank)
    (fixed : ∀ place, start ≤ place → σ ⟨place⟩ = ⟨place⟩) :
    (numberAll start plans).map (rename σ) = numberAll start plans := by
  induction plans generalizing start with
  | nil => rfl
  | cons first rest ih =>
    obtain ⟨own, others⟩ := List.forall_mem_cons.mp blank
    rw [numberAll, List.map_cons, own.rename_number fun _ _ => fixed _ (Nat.le_add_right _ _),
      ih others fun place behind => fixed place (Nat.le_of_add_right_le behind)]

/-- Plans that are reordered and renamed are put back by the other way round. -/
theorem reorders_symm {plans plans' : List Plan} {σ : Equiv.Perm SymbolIndex}
    (reorders : plans'.Perm (plans.map (rename σ))) : plans.Perm (plans'.map (rename σ.symm)) := by
  have back := (reorders.map (rename σ.symm)).symm
  have same : (plans.map (rename σ)).map (rename σ.symm) = plans := by
    rw [List.map_map]
    refine (List.map_congr_left fun plan _ => ?_).trans (List.map_id plans)
    rw [Function.comp_apply, rename_rename, σ.symm_comp_self, rename_id, id]
  rwa [same] at back

/-- Plans that are numbered in another order are the same plans, apart from which symbols they have. -/
theorem exists_renaming {α : Type} (plan : α → Plan) {items items' : List α} (perm : items'.Perm items)
    (blank : ∀ item ∈ items, (plan item).IsBlank) (start : Nat) :
    ∃ σ : Equiv.Perm SymbolIndex, (∀ place < start, σ ⟨place⟩ = ⟨place⟩) ∧
      (items'.zip (numberAll start (items'.map plan))).Perm
        (items.zip ((numberAll start (items.map plan)).map (rename σ))) := by
  induction perm generalizing start with
  | nil => exact ⟨.refl _, fun _ _ => rfl, .nil⟩
  | cons item _ ih =>
    obtain ⟨own, others⟩ := List.forall_mem_cons.mp blank
    obtain ⟨σ, fixed, same⟩ := ih others (start + (plan item).size)
    refine ⟨σ, fun place before => fixed place (Nat.lt_add_right _ before), ?_⟩
    have first := own.rename_number fun place inside => fixed (start + place) (Nat.add_lt_add_left inside _)
    simp only [List.map_cons, numberAll, List.zip_cons_cons, first]
    exact same.cons _
  | swap first second rest =>
    obtain ⟨inFirst, inSecond, others⟩ :=
      (List.forall_mem_cons.mp blank).imp_right List.forall_mem_cons.mp
    refine ⟨exchangeBlocks start (plan first).size (plan second).size,
      fun place before => exchangeBlocks_before _ _ _ before, ?_⟩
    have left := inFirst.rename_number fun place inside =>
      exchangeBlocks_first start _ (plan second).size inside
    have right := inSecond.rename_number fun place inside =>
      exchangeBlocks_second start (plan first).size _ inside
    have behind := map_rename_numberAll (List.forall_mem_map.mpr others) fun place behind =>
      exchangeBlocks_behind start (plan first).size (plan second).size behind
    simp only [List.map_cons, numberAll, List.zip_cons_cons, left, right, behind,
      Nat.add_right_comm start (plan second).size]
    exact .swap _ _ _
  | trans _ further ihFirst ihSecond =>
    obtain ⟨σ, fixed, same⟩ := ihSecond blank start
    obtain ⟨τ, fixed', same'⟩ := ihFirst (fun item member => blank item (further.mem_iff.mp member)) start
    refine ⟨σ.trans τ, fun place before => ?_, ?_⟩
    · rw [Equiv.trans_apply, fixed place before, fixed' place before]
    -- what is paired with the same item is renamed once more
    · have again := same.map (Prod.map id (rename τ))
      rw [← List.zip_map_right, ← List.zip_map_right, List.map_map] at again
      have twice : rename τ ∘ rename σ = rename (σ.trans τ) := funext (rename_rename τ)
      exact twice ▸ same'.trans again

end Plan

end Cadence
