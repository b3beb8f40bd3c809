import Mathlib.Data.List.Nodup
import Mathlib.Logic.Relation

/-!
# Depth-first traversal

To visit some requests one after the other, each with all that it leads to and none a second time.
`Visits` has one rule for each case of a recursive loader. A derivation is a traversal that ends. What
it comes to is everything that can be reached, once.
-/
namespace Cadence

variable {α : Type} {next : α → List α} {seen requests order : List α}

/-- To visit some requests when others were seen before, latest first, is to come by some more in
their order. -/
inductive Visits (next : α → List α) : List α → List α → List α → Prop
  | done {seen : List α} : Visits next seen [] []
  | again {seen rest order : List α} {request : α} : request ∈ seen → Visits next seen rest order →
      Visits next seen (request :: rest) order
  | enter {seen rest inner outer : List α} {request : α} : request ∉ seen →
      Visits next (request :: seen) (next request) inner →
      Visits next (inner.reverse ++ request :: seen) rest outer →
      Visits next seen (request :: rest) (request :: (inner ++ outer))

/-- Whether one thing leads to another. -/
def LeadsTo (next : α → List α) (whole part : α) : Prop := part ∈ next whole

namespace Visits

/-- The first of some requests are visited first. -/
theorem of_append {first second : List α} (visits : Visits next seen (first ++ second) order) :
    ∃ inner outer, order = inner ++ outer ∧ Visits next seen first inner ∧
      Visits next (inner.reverse ++ seen) second outer := by
  -- the first requests are taken off one by one, along the traversal
  generalize both : first ++ second = requests at visits
  induction visits generalizing first with
  | done =>
    obtain ⟨rfl, rfl⟩ := List.append_eq_nil_iff.mp both
    exact ⟨[], [], rfl, .done, .done⟩
  | @again seen rest order request known visits ih =>
    cases first with
    | nil =>
      obtain rfl : second = request :: rest := both
      exact ⟨[], order, rfl, .done, .again known visits⟩
    | cons head tail =>
      obtain ⟨rfl, others⟩ := List.cons.inj both
      obtain ⟨inner, outer, rfl, left, right⟩ := ih others
      exact ⟨inner, outer, rfl, .again known left, right⟩
  | @enter seen rest inside behind request fresh visitsInner visitsOuter _ ih =>
    cases first with
    | nil =>
      obtain rfl : second = request :: rest := both
      exact ⟨[], _, rfl, .done, .enter fresh visitsInner visitsOuter⟩
    | cons head tail =>
      obtain ⟨rfl, others⟩ := List.cons.inj both
      obtain ⟨inner, outer, rfl, left, right⟩ := ih others
      refine ⟨head :: (inside ++ inner), outer, by simp, .enter fresh visitsInner left, ?_⟩
      simpa using right

/-- Nothing is visited twice. -/
theorem nodup (visits : Visits next seen requests order) :
    order.Nodup ∧ ∀ item ∈ order, item ∉ seen := by
  induction visits with
  | done => exact ⟨List.nodup_nil, nofun⟩
  | again _ _ ih => exact ih
  | @enter seen rest inner outer request fresh _ _ ihInner ihOuter =>
    obtain ⟨innerDistinct, innerNew⟩ := ihInner
    obtain ⟨outerDistinct, outerNew⟩ := ihOuter
    -- the request itself and all that it led to counts as seen from there on
    simp only [List.mem_append, List.mem_reverse, List.mem_cons, not_or] at innerNew outerNew
    constructor
    · refine List.nodup_cons.mpr ⟨?_, List.Nodup.append innerDistinct outerDistinct ?_⟩
      · intro again
        rcases List.mem_append.mp again with inside | behind
        · exact (innerNew request inside).1 rfl
        · exact (outerNew request behind).2.1 rfl
      · exact fun item inside behind => (outerNew item behind).1 inside
    · intro item member
      rcases List.mem_cons.mp member with rfl | later
      · exact fresh
      · rcases List.mem_append.mp later with inside | behind
        · exact (innerNew item inside).2
        · exact (outerNew item behind).2.2

/-- Everything that is visited can be reached from the requests. -/
theorem reachable (visits : Visits next seen requests order) :
    ∀ item ∈ order, ∃ request ∈ requests, Relation.ReflTransGen (LeadsTo next) request item := by
  induction visits with
  | done => nofun
  | again _ _ ih =>
    intro item member
    obtain ⟨request, inside, reaches⟩ := ih item member
    exact ⟨request, List.mem_cons_of_mem _ inside, reaches⟩
  | @enter seen rest inner outer request fresh _ _ ihInner ihOuter =>
    intro item member
    rcases List.mem_cons.mp member with rfl | later
    · exact ⟨item, List.mem_cons_self, .refl⟩
    rcases List.mem_append.mp later with inside | behind
    · obtain ⟨first, leads, reaches⟩ := ihInner item inside
      exact ⟨request, List.mem_cons_self, .head leads reaches⟩
    · obtain ⟨other, inside, reaches⟩ := ihOuter item behind
      exact ⟨other, List.mem_cons_of_mem _ inside, reaches⟩

/-- All requests were seen or are visited, and so is all that the visited ones lead to. -/
theorem covers (visits : Visits next seen requests order) :
    (∀ request ∈ requests, request ∈ seen ∨ request ∈ order) ∧
      ∀ item ∈ order, ∀ part ∈ next item, part ∈ seen ∨ part ∈ order := by
  induction visits with
  | done => exact ⟨nofun, nofun⟩
  | again known _ ih =>
    exact ⟨List.forall_mem_cons.mpr ⟨.inl known, ih.1⟩, ih.2⟩
  | @enter seen rest inner outer request fresh _ _ ihInner ihOuter =>
    simp only [List.mem_append, List.mem_reverse, List.mem_cons] at ihInner ihOuter ⊢
    obtain ⟨innerRequests, innerParts⟩ := ihInner
    obtain ⟨outerRequests, outerParts⟩ := ihOuter
    constructor
    · rintro item (rfl | behind)
      · exact .inr (.inl rfl)
      · have := outerRequests item behind
        tauto
    · rintro item (rfl | inside | behind) part leads
      · have := innerRequests part leads
        tauto
      · have := innerParts item inside part leads
        tauto
      · have := outerParts item behind part leads
        tauto

/-- What a traversal comes to is what can be reached. -/
theorem mem_iff (visits : Visits next [] requests order) (item : α) :
    item ∈ order ↔ ∃ request ∈ requests, Relation.ReflTransGen (LeadsTo next) request item := by
  constructor
  · exact visits.reachable item
  · -- what is visited contains the requests and is closed under the steps
    rintro ⟨request, inside, reaches⟩
    obtain ⟨requested, closed⟩ := visits.covers
    simp only [List.not_mem_nil, false_or] at requested closed
    induction reaches with
    | refl => exact requested request inside
    | tail _ leads ih => exact closed _ ih _ leads

/-- Only what the visited items lead to matters. -/
theorem congr {next' : α → List α} (visits : Visits next seen requests order)
    (same : ∀ item ∈ order, next item = next' item) : Visits next' seen requests order := by
  induction visits with
  | done => exact .done
  | again known _ ih => exact .again known (ih same)
  | enter fresh _ _ ihInner ihOuter =>
    simp only [List.forall_mem_cons, List.forall_mem_append] at same
    refine .enter fresh ?_ (ihOuter same.2.2)
    rw [← same.1]
    exact ihInner same.2.1

end Visits

end Cadence
