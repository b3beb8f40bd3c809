import Cadence.Proofs.Parse.Acceptance
import Cadence.Proofs.Parse.Progress

/-!
# Climbing precedences

The loop over operators keeps a grouping of what it has seen. Whenever it goes on, the next operator
binds at most as tightly as those of the grouping, since the operand to the right took all that bind
more tightly than the last one. So the grouping stays ordered, and as there is only one ordered
grouping of a sequence, it is the one that the grammar asks for.
-/
namespace Cadence

theorem Operator.precedence_lt_tightest {sign : Operator} {precedence : Nat}
    (known : sign.precedence? = some precedence) : precedence < Parser.tightest := by
  obtain ⟨group, _, rfl⟩ := Option.map_eq_some_iff.mp known
  cases group <;> decide

theorem Link.precedence_eq {first : PlacedToken} {sign : Spanned Operator} {precedence : Nat}
    (found : first.binary? = some (sign, precedence)) (operand : Expr) :
    Link.precedence ⟨sign, operand⟩ = precedence := by
  simp [Link.precedence, PlacedToken.precedence_of_binary found]

namespace ChainPhrase

variable {operand : Phrase Expr} {least high : Nat} {input middle rest : List PlacedToken}
variable {links others : List Link}

theorem append (tight : ChainPhrase operand high input middle links) (lower : least ≤ high)
    (loose : ChainPhrase operand least middle rest others) :
    ChainPhrase operand least input rest (links ++ others) := by
  induction tight with
  | done => exact loose
  | more found atLeast parsed _ ih => exact .more found (Nat.le_trans lower atLeast) parsed (ih loose)

/-- The links in front that bind tightly, and those from the first one that does not. -/
theorem split (chain : ChainPhrase operand least input rest links) (lower : least ≤ high) :
    ∃ middle tight loose, links = tight ++ loose ∧ ChainPhrase operand high input middle tight ∧
      ChainPhrase operand least middle rest loose := by
  induction chain with
  | @done input ends =>
    refine ⟨input, [], [], rfl, .done ?_, .done ends⟩
    rintro ⟨first, isFirst, sign, precedence, found, atLeast⟩
    exact ends ⟨first, isFirst, sign, precedence, found, Nat.le_trans lower atLeast⟩
  | @more first input middle rest sign precedence right links found atLeast parsed chain ih =>
    by_cases tightly : high ≤ precedence
    · obtain ⟨behind, tight, loose, rfl, tightChain, looseChain⟩ := ih
      exact ⟨behind, _, loose, rfl, .more found tightly parsed tightChain, looseChain⟩
    · refine ⟨first :: input, [], _, rfl, .done ?_, .more found atLeast parsed chain⟩
      rintro ⟨head, isHead, other, tightness, same, tightEnough⟩
      cases isHead
      rw [found] at same
      obtain ⟨_, rfl⟩ := Prod.mk.inj (Option.some.inj same)
      exact tightly tightEnough

theorem not_continues (chain : ChainPhrase operand least input rest links) :
    ¬ Continues least rest := by
  induction chain with
  | done ends => exact ends
  | more _ _ _ _ ih => exact ih

theorem le_precedence (chain : ChainPhrase operand least input rest links) :
    ∀ link ∈ links, least ≤ link.precedence := by
  induction chain with
  | done => simp
  | more found atLeast _ _ ih =>
    intro link member
    rcases List.mem_cons.mp member with rfl | behind
    · rwa [Link.precedence_eq found]
    · exact ih link behind

end ChainPhrase

namespace Parser

variable {finish : PlacedToken} {input rest : List PlacedToken}
variable (ended : finish.token.lexeme = .endOfInput)

theorem accepts_binaryOperator? {found : Option (Spanned Operator × Nat)} :
    binaryOperator?.Accepts finish input rest found ↔
      found = (input.headD finish).binary? ∧ rest = input :=
  accepts_pure

section Steps

include ended

theorem accepts_climbStep {climbed : Nat → Parser Expr} {least : Nat} {left : Expr}
    {outcome : Step Expr Expr} :
    (climbStep climbed least left).Accepts finish input rest outcome ↔
      (¬ Continues least input ∧ rest = input ∧ outcome = .done left) ∨
      ∃ first tail sign precedence right, input = first :: tail ∧
        first.binary? = some (sign, precedence) ∧ least ≤ precedence ∧
        (climbed (precedence + 1)).Accepts finish tail rest right ∧
        outcome = .more (.ofForm (left.span.through right.span) (.binary left sign right)) := by
  have unread : finish.binary? = none := by simp [PlacedToken.binary?, ended]
  simp only [climbStep, accepts_bind, accepts_binaryOperator?]
  constructor
  · rintro ⟨_, middle, ⟨rfl, rfl⟩, accepts⟩
    split at accepts
    next sign precedence found =>
      cases middle with
      | nil => simp [unread] at found
      | cons first tail =>
        rw [List.headD_cons] at found
        split at accepts
        next loose =>
          obtain ⟨rfl, rfl⟩ := accepts_pure.mp accepts
          refine .inl ⟨?_, rfl, rfl⟩
          rintro ⟨head, isHead, other, tightness, same, atLeast⟩
          cases isHead
          rw [found] at same
          -- the operator that is too loose here is the one that was claimed to be tight enough
          obtain ⟨_, rfl⟩ := Prod.mk.inj (Option.some.inj same)
          omega
        next tight =>
          obtain ⟨right, behind, climbs, accepts⟩ := accepts_bind.mp (accepts_advance.mp accepts)
          obtain ⟨rfl, rfl⟩ := accepts_pure.mp accepts
          exact .inr ⟨first, tail, sign, precedence, right, rfl, found, by omega, climbs, rfl⟩
    next none =>
      obtain ⟨rfl, rfl⟩ := accepts_pure.mp accepts
      refine .inl ⟨?_, rfl, rfl⟩
      rintro ⟨head, isHead, sign, precedence, found, _⟩
      cases rest with
      | nil => cases isHead
      | cons first tail =>
        cases isHead
        rw [List.headD_cons, found] at none
        cases none
  · rintro (⟨ends, rfl, rfl⟩ | ⟨first, tail, sign, precedence, right, rfl, found, tight, climbs, rfl⟩)
    · refine ⟨_, rest, ⟨rfl, rfl⟩, ?_⟩
      split
      next sign precedence found =>
        cases rest with
        | nil => simp [unread] at found
        | cons first tail =>
          have loose : precedence < least := by
            refine Nat.not_le.mp fun tight => ends ⟨first, rfl, sign, precedence, found, tight⟩
          rw [if_pos loose]
          exact accepts_pure.mpr ⟨rfl, rfl⟩
      next => exact accepts_pure.mpr ⟨rfl, rfl⟩
    · refine ⟨_, first :: tail, ⟨rfl, rfl⟩, ?_⟩
      simp only [List.headD_cons, found]
      rw [if_neg (by omega), accepts_advance]
      exact accepts_bind.mpr ⟨right, rest, climbs, accepts_pure.mpr ⟨rfl, rfl⟩⟩

end Steps

/-- If the next operator binds tightly enough to go on, it binds at most as tightly as those of the
grouping in front of it. -/
def FitsBehind (grouping : Grouping) (least : Nat) (input : List PlacedToken) : Prop :=
  ∀ precedence, least ≤ precedence → Continues precedence input →
    ∀ link ∈ grouping.links, precedence ≤ link.precedence

/-- A further operator with an ordered grouping of what it takes to its right. -/
theorem isOrdered_binary {grouping right : Grouping} {least precedence : Nat}
    {first : PlacedToken} {tail : List PlacedToken} {sign : Spanned Operator}
    (ordered : grouping.IsOrdered) (fits : FitsBehind grouping least (first :: tail))
    (found : first.binary? = some (sign, precedence)) (atLeast : least ≤ precedence)
    (rightOrdered : right.IsOrdered) (tight : ∀ link ∈ right.links, precedence < link.precedence) :
    (Grouping.binary grouping sign right).IsOrdered := by
  have continues : Continues precedence (first :: tail) :=
    ⟨first, rfl, sign, precedence, found, Nat.le_refl _⟩
  refine ⟨ordered, rightOrdered, fun link member => ?_, fun link member => ?_⟩
  · rw [Link.precedence_eq found]
    exact fits precedence atLeast continues link member
  · rw [Link.precedence_eq found]
    exact tight link member

/-- What comes behind an operator and what it took to its right binds at most as tightly as it. -/
theorem fitsBehind_binary {grouping right : Grouping} {least precedence : Nat}
    {first : PlacedToken} {tail : List PlacedToken} {sign : Spanned Operator}
    (ordered : (Grouping.binary grouping sign right).IsOrdered)
    (found : first.binary? = some (sign, precedence))
    (ends : ¬ Continues (precedence + 1) tail) :
    FitsBehind (.binary grouping sign right) least tail := by
  rintro tightness _ ⟨head, isHead, other, further, same, atLeast⟩ link member
  have root := ordered.root_le link member
  rw [Link.precedence_eq found] at root
  have loose : further ≤ precedence := by
    refine Nat.not_lt.mp fun tighter => ends ⟨head, isHead, other, further, same, tighter⟩
  omega

section Climbing

variable {operand : Parser Expr} {phrase : Phrase Expr} {bound : Nat} {climbed : Nat → Parser Expr}
variable {least : Nat}
variable (recognizes : ∀ precedence, least ≤ precedence →
  (climbed (precedence + 1)).RecognizesBelow finish (GroupedPhrase phrase (precedence + 1)) bound)
include ended recognizes

/-- A run of the loop extends the grouping in front of it. -/
theorem grouped_of_loop {left whole : Expr}
    (loops : LoopPhrase (fun left => (climbStep climbed least left).Accepts finish) left input rest
      whole)
    {grouping : Grouping} (isLeft : left = grouping.expression) (ordered : grouping.IsOrdered)
    (fits : FitsBehind grouping least input) (short : input.length < bound + 1) :
    ∃ links, ChainPhrase phrase least input rest links ∧ ∃ extended : Grouping,
      extended.IsOrdered ∧ extended.first = grouping.first ∧
      extended.links = grouping.links ++ links ∧ whole = extended.expression := by
  induction loops generalizing grouping with
  | @done left input rest whole accepts =>
    rcases (accepts_climbStep ended).mp accepts with ⟨ends, rfl, outcome⟩ | ⟨_, _, _, _, _, _, _, _, _, outcome⟩
    · cases outcome
      exact ⟨[], .done ends, grouping, ordered, rfl, by simp, isLeft⟩
    · cases outcome
  | @more left next input middle rest whole accepts loops ih =>
    rcases (accepts_climbStep ended).mp accepts with ⟨_, _, outcome⟩ |
      ⟨first, tail, sign, precedence, right, rfl, found, atLeast, climbs, outcome⟩
    · cases outcome
    · cases outcome
      rw [List.length_cons] at short
      have fewer := climbs.length_le
      -- what the operator took to its right is grouped already, by operators that bind more tightly
      cases (recognizes precedence atLeast tail (by omega) _ _).mp climbs with
      | @intro _ inside _ start tight rightGrouping parsed chain rightOrdered isStart isTight =>
        have tighter : ∀ link ∈ rightGrouping.links, precedence < link.precedence :=
          isTight ▸ chain.le_precedence
        have binaryOrdered := isOrdered_binary ordered fits found atLeast rightOrdered tighter
        have binaryFits : FitsBehind (.binary grouping sign rightGrouping) least middle :=
          fitsBehind_binary binaryOrdered found chain.not_continues
        have same : Expr.ofForm (left.span.through rightGrouping.expression.span)
            (.binary left sign rightGrouping.expression) =
              (Grouping.binary grouping sign rightGrouping).expression := by
          rw [isLeft]
          rfl
        obtain ⟨links, loose, extended, isOrdered, sameFirst, sameLinks, same⟩ :=
          ih same binaryOrdered binaryFits (by omega)
        refine ⟨⟨sign, start⟩ :: (tight ++ links), ?_, extended, isOrdered, sameFirst, ?_, same⟩
        · exact .more found atLeast parsed (chain.append (by omega) loose)
        · rw [sameLinks, Grouping.links, isStart, isTight]
          simp

/-- Whatever the grammar puts behind a grouping, the loop takes. -/
theorem loop_of_grouped {links : List Link} (chain : ChainPhrase phrase least input rest links)
    {grouping extended : Grouping} (ordered : grouping.IsOrdered)
    (fits : FitsBehind grouping least input) (isOrdered : extended.IsOrdered)
    (sameFirst : extended.first = grouping.first)
    (sameLinks : extended.links = grouping.links ++ links) (short : input.length < bound + 1) :
    LoopPhrase (fun left => (climbStep climbed least left).Accepts finish) grouping.expression input
      rest extended.expression := by
  -- The chain behind what an operator takes to its right is not a part of the chain at hand, and so
  -- the induction is on the number of tokens.
  induction size : input.length using Nat.strongRecOn generalizing input grouping links with
  | ind size ih =>
    cases chain with
    | done ends =>
      have same : extended = grouping :=
        isOrdered.unique ordered sameFirst (by simpa using sameLinks)
      exact .done ((accepts_climbStep ended).mpr (.inl ⟨ends, rfl, by rw [same]⟩))
    | @more first tail middle _ sign precedence right links found atLeast parsed chain =>
      rw [List.length_cons] at short size
      obtain ⟨behind, tight, loose, rfl, tightChain, looseChain⟩ :=
        chain.split (show least ≤ precedence + 1 by omega)
      obtain ⟨rightGrouping, rightOrdered, isStart, isTight⟩ := Grouping.exists_isOrdered right tight
      have climbs := (recognizes precedence atLeast tail (by omega) _ _).mpr
        (.intro parsed tightChain rightOrdered isStart isTight)
      have fewer := climbs.length_le
      have tighter : ∀ link ∈ rightGrouping.links, precedence < link.precedence :=
        isTight ▸ tightChain.le_precedence
      have binaryOrdered := isOrdered_binary ordered fits found atLeast rightOrdered tighter
      have binaryFits : FitsBehind (.binary grouping sign rightGrouping) least behind :=
        fitsBehind_binary binaryOrdered found tightChain.not_continues
      refine .more ((accepts_climbStep ended).mpr (.inr ⟨first, tail, sign, precedence, _, rfl, found,
        atLeast, climbs, rfl⟩)) ?_
      refine ih behind.length (by omega) looseChain binaryOrdered binaryFits sameFirst ?_ (by omega) rfl
      rw [sameLinks, Grouping.links, isStart, isTight]
      simp

end Climbing

/-- Climbing within a depth that is enough for all precedences yields the ordered grouping. -/
theorem recognizes_climbWithin {operand : Parser Expr} {phrase : Phrase Expr} {bound : Nat}
    (ended : finish.token.lexeme = .endOfInput) (takes : operand.TakesBelow bound)
    (recognizes : operand.RecognizesBelow finish phrase bound) (depth least : Nat)
    (deep : tightest ≤ depth + least) :
    (climbWithin operand depth least).RecognizesBelow finish (GroupedPhrase phrase least) bound := by
  induction depth generalizing least with
  | zero =>
    intro input short rest found
    -- at this depth no operator is left that binds tightly enough, and both sides are one operand
    have never {precedence : Nat} {first : PlacedToken} {sign : Spanned Operator}
        (found : first.binary? = some (sign, precedence)) : precedence < least := by
      have loose := Operator.precedence_lt_tightest (PlacedToken.precedence_of_binary found)
      omega
    refine (recognizes input short rest found).trans ⟨fun parsed => ?_, fun derivation => ?_⟩
    · have ends : ¬ Continues least rest := by
        rintro ⟨first, _, sign, precedence, isOperator, atLeast⟩
        exact Nat.not_le.mpr (never isOperator) atLeast
      have ordered : (Grouping.operand found).IsOrdered := trivial
      exact .intro parsed (.done ends) ordered rfl rfl
    · cases derivation with
      | @intro _ middle _ first links grouping parsed chain ordered isFirst isLinks =>
        cases chain with
        | done =>
          cases grouping with
          | operand expression =>
            have same : expression = first := isFirst
            exact same ▸ parsed
          | binary left sign right => simp [Grouping.links] at isLinks
        | more found atLeast => exact absurd atLeast (Nat.not_le.mpr (never found))
  | succ depth ih =>
    intro input short rest found
    have steps (before : ParseState) (known : before.IsEnded)
        (fewer : before.ahead.length ≤ input.length) :
        Steps (climbStep (climbWithin operand depth) least) before :=
      steps_climbStep known (fun precedence after afterEnded less =>
        (takes_climbWithin takes depth precedence after afterEnded (by omega)).ends) least
    have climbs (precedence : Nat) (atLeast : least ≤ precedence) :=
      ih (precedence + 1) (by omega)
    -- the loop starts with a grouping that is the first operand alone
    have single (first : Expr) : (Grouping.operand first).IsOrdered := trivial
    have fits (first : Expr) (middle : List PlacedToken) :
        FitsBehind (.operand first) least middle := by
      simp [FitsBehind, Grouping.links]
    rw [climbWithin, accepts_bind]
    constructor
    · rintro ⟨first, middle, parsed, loops⟩
      have fewer := parsed.length_le
      have loops := (accepts_loop ended fun before known within => steps before known (by omega)).mp
        loops
      obtain ⟨links, chain, grouping, ordered, isFirst, isLinks, rfl⟩ :=
        grouped_of_loop ended climbs loops rfl (single first) (fits first middle) (by omega)
      exact .intro ((recognizes input short _ _).mp parsed) chain ordered isFirst isLinks
    · intro derivation
      cases derivation with
      | @intro _ middle _ first links grouping parsed chain ordered isFirst isLinks =>
        have accepts := (recognizes input short _ _).mpr parsed
        have fewer := accepts.length_le
        refine ⟨first, middle, accepts, ?_⟩
        refine (accepts_loop ended fun before known within => steps before known (by omega)).mpr ?_
        exact loop_of_grouped ended climbs chain (single first) (fits first middle) ordered isFirst
          isLinks (by omega)

theorem recognizes_climb {operand : Parser Expr} {phrase : Phrase Expr} {bound : Nat}
    (ended : finish.token.lexeme = .endOfInput) (takes : operand.TakesBelow bound)
    (recognizes : operand.RecognizesBelow finish phrase bound) :
    (climb operand).RecognizesBelow finish (GroupedPhrase phrase 0) bound :=
  recognizes_climbWithin ended takes recognizes tightest 0 (Nat.le_refl _)

end Parser

end Cadence
