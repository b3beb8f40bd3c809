import Cadence.Proofs.Parse.Climbing

/-!
# Sequences of operands and operators

Operands may hold blocks in which something is wrong, so that parsing one can succeed and leave
reports behind. A chain of operators is therefore a relation between states of the parser: each
operand is what the parser of operands makes of the state behind its operator. Whatever the operands
are, an expression takes all of such a chain, and its tree is the ordered grouping.
-/
namespace Cadence

open Cadence.Parser

/-- Operators that continue the line and bind at least as tightly as given, each with the operand
that is parsed behind it. Behind the last operand no such operator follows. -/
inductive OperatorChain (operand : Parser Expr) (least : Nat) :
    ParseState → ParseState → List Link → Prop
  | done {state : ParseState} : ¬ Continues least state.ahead →
      OperatorChain operand least state state []
  | more {before behind after : ParseState} {first : PlacedToken} {tail : List PlacedToken}
      {sign : Spanned Operator} {precedence : Nat} {right : Expr} {links : List Link} :
      before.ahead = first :: tail → first.binary? = some (sign, precedence) → least ≤ precedence →
      operand.run { before with ahead := tail } = (some right, behind) →
      OperatorChain operand least behind after links →
      OperatorChain operand least before after (⟨sign, right⟩ :: links)

/-- A token that is ahead is taken. -/
theorem Parser.run_advance {before : ParseState} {first : PlacedToken} {tail : List PlacedToken}
    (isAhead : before.ahead = first :: tail) :
    advance.run before = (some (), { before with ahead := tail }) := by
  simp only [advance, isAhead, List.tail_cons]

namespace OperatorChain

variable {operand : Parser Expr} {least high : Nat} {before after : ParseState} {links : List Link}

theorem reaches (chain : OperatorChain operand least before after links) : before.Reaches after := by
  induction chain with
  | done => exact .refl _
  | @more before _ _ first tail _ _ _ _ isAhead _ _ parsed _ ih =>
    have taken : before.Reaches { before with ahead := tail } := by
      have advanced := Parser.advance.reaches before
      rwa [run_advance isAhead] at advanced
    have operandReaches := operand.reaches { before with ahead := tail }
    rw [parsed] at operandReaches
    exact taken.trans (operandReaches.trans ih)

theorem not_continues (chain : OperatorChain operand least before after links) :
    ¬ Continues least after.ahead := by
  induction chain with
  | done ends => exact ends
  | more _ _ _ _ _ ih => exact ih

theorem le_precedence (chain : OperatorChain operand least before after links) :
    ∀ link ∈ links, least ≤ link.precedence := by
  induction chain with
  | done => simp
  | more _ found atLeast _ _ ih =>
    intro link member
    rcases List.mem_cons.mp member with rfl | behind
    · rwa [Link.precedence_eq found]
    · exact ih link behind

/-- The links in front that bind tightly, and those from the first one that does not. -/
theorem split (chain : OperatorChain operand least before after links) (lower : least ≤ high) :
    ∃ middle tight loose, links = tight ++ loose ∧
      OperatorChain operand high before middle tight ∧
      OperatorChain operand least middle after loose := by
  induction chain with
  | @done state ends =>
    refine ⟨state, [], [], rfl, .done ?_, .done ends⟩
    rintro ⟨first, isFirst, sign, precedence, found, atLeast⟩
    exact ends ⟨first, isFirst, sign, precedence, found, Nat.le_trans lower atLeast⟩
  | @more before behind after first tail sign precedence right links isAhead found atLeast parsed
      chain ih =>
    by_cases tightly : high ≤ precedence
    · obtain ⟨middle, tight, loose, rfl, tightChain, looseChain⟩ := ih
      exact ⟨middle, _, loose, rfl, .more isAhead found tightly parsed tightChain, looseChain⟩
    · refine ⟨before, [], _, rfl, .done ?_, .more isAhead found atLeast parsed chain⟩
      rintro ⟨head, isHead, other, tightness, same, tightEnough⟩
      rw [isAhead] at isHead
      cases isHead
      rw [found] at same
      obtain ⟨_, rfl⟩ := Prod.mk.inj (Option.some.inj same)
      exact tightly tightEnough

end OperatorChain

namespace Parser

/-- Where no operator goes on, the operator that is found is too loose. -/
theorem lt_of_not_continues {before : ParseState} {least precedence : Nat} {sign : Spanned Operator}
    (ended : before.IsEnded) (ends : ¬ Continues least before.ahead)
    (found : before.current.binary? = some (sign, precedence)) : precedence < least := by
  cases isAhead : before.ahead with
  | nil =>
    -- the end of the input is no operator
    have last : before.current.token.lexeme = .endOfInput := by
      rw [ParseState.current, isAhead]
      exact ended
    simp [PlacedToken.binary?, last] at found
  | cons first tail =>
    rw [ParseState.current, isAhead, List.headD_cons] at found
    apply Nat.lt_of_not_le
    intro atLeast
    exact ends ⟨first, by rw [isAhead, List.head?_cons]; rfl, sign, precedence, found, atLeast⟩

theorem run_binaryOperator? {β : Type} (next : Option (Spanned Operator × Nat) → Parser β)
    (before : ParseState) :
    (binaryOperator? >>= next).run before = (next before.current.binary?).run before :=
  rfl

section Steps

variable {climbed : Nat → Parser Expr} {least : Nat} {before : ParseState} {left : Expr}

theorem run_climbStep_done (ended : before.IsEnded) (ends : ¬ Continues least before.ahead) :
    (climbStep climbed least left).run before = (some (.done left), before) := by
  rw [climbStep, run_binaryOperator?]
  split
  next sign precedence found =>
    rw [if_pos (lt_of_not_continues ended ends found)]
    rfl
  next => rfl

theorem run_climbStep_more {after : ParseState} {first : PlacedToken} {tail : List PlacedToken}
    {sign : Spanned Operator} {precedence : Nat} {right : Expr}
    (isAhead : before.ahead = first :: tail) (found : first.binary? = some (sign, precedence))
    (atLeast : least ≤ precedence)
    (climbs : (climbed (precedence + 1)).run { before with ahead := tail } = (some right, after)) :
    (climbStep climbed least left).run before =
      (some (.more (.ofForm (left.span.through right.span) (.binary left sign right))), after) := by
  have isOperator : before.current.binary? = some (sign, precedence) := by
    rw [ParseState.current, isAhead, List.headD_cons, found]
  rw [climbStep, run_binaryOperator?, isOperator]
  simp only [if_neg (Nat.not_lt.mpr atLeast), run_bind, run_advance isAhead, climbs]
  rfl

end Steps

/-- What the parser yields for an operand and a chain of operators is their ordered grouping. -/
def GroupsChains (climber operand : Parser Expr) (least : Nat) : Prop :=
  ∀ ⦃before behind after : ParseState⦄ ⦃first : Expr⦄ ⦃links : List Link⦄ ⦃grouping : Grouping⦄,
    before.IsEnded → operand.run before = (some first, behind) →
    OperatorChain operand least behind after links →
    grouping.IsOrdered → grouping.first = first → grouping.links = links →
    climber.run before = (some grouping.expression, after)

variable {operand : Parser Expr} {climbed : Nat → Parser Expr} {least : Nat}

/-- The loop extends the grouping in front of a chain by the whole chain. -/
theorem run_repeatWithin_of_chain
    (climbs : ∀ precedence, least ≤ precedence →
      GroupsChains (climbed (precedence + 1)) operand (precedence + 1))
    {before after : ParseState} {links : List Link} (ended : before.IsEnded)
    (chain : OperatorChain operand least before after links) {grouping extended : Grouping}
    (ordered : grouping.IsOrdered) (fits : FitsBehind grouping least before.ahead)
    (isOrdered : extended.IsOrdered) (sameFirst : extended.first = grouping.first)
    (sameLinks : extended.links = grouping.links ++ links) {budget : Nat}
    (short : before.ahead.length < budget) :
    (repeatWithin (climbStep climbed least) budget grouping.expression).run before =
      (some extended.expression, after) := by
  -- What an operator takes to its right is a part of the chain of which the loop sees nothing, and
  -- so the induction is on the budget.
  induction budget generalizing before grouping links with
  | zero => omega
  | succ budget ih =>
    rw [repeatWithin, run_bind]
    cases chain with
    | done ends =>
      have same : extended = grouping :=
        isOrdered.unique ordered sameFirst (by simpa using sameLinks)
      rw [run_climbStep_done ended ends, same]
      rfl
    | @more _ behind _ first tail sign precedence right links isAhead found atLeast parsed chain =>
      obtain ⟨middle, tight, loose, rfl, tightChain, looseChain⟩ :=
        chain.split (show least ≤ precedence + 1 by omega)
      obtain ⟨inner, innerOrdered, innerFirst, innerLinks⟩ := Grouping.exists_isOrdered right tight
      have afterTaken : ParseState.IsEnded { before with ahead := tail } := ended
      have ran := climbs precedence atLeast afterTaken parsed tightChain innerOrdered
        innerFirst innerLinks
      have taken : ParseState.Reaches { before with ahead := tail } middle := by
        have reached := (climbed (precedence + 1)).reaches { before with ahead := tail }
        rwa [ran] at reached
      have fewer : middle.ahead.length ≤ tail.length := taken.length_le
      have tighter : ∀ link ∈ inner.links, precedence < link.precedence := by
        rw [innerLinks]
        exact tightChain.le_precedence
      rw [isAhead] at fits short
      rw [List.length_cons] at short
      have binaryOrdered := isOrdered_binary ordered fits found atLeast innerOrdered tighter
      have binaryFits : FitsBehind (.binary grouping sign inner) least middle.ahead :=
        fitsBehind_binary binaryOrdered found tightChain.not_continues
      rw [run_climbStep_more isAhead found atLeast ran]
      apply ih (afterTaken.of_reaches taken) looseChain binaryOrdered binaryFits sameFirst
      · rw [sameLinks, Grouping.links, innerFirst, innerLinks]
        simp
      · omega

/-- Climbing within a depth that is enough for all precedences yields the ordered grouping. -/
theorem groupsChains_climbWithin (operand : Parser Expr) (depth : Nat) (least : Nat)
    (deep : tightest ≤ depth + least) :
    GroupsChains (climbWithin operand depth least) operand least := by
  induction depth generalizing least with
  | zero =>
    intro before behind after first links grouping ended parsed chain ordered isFirst isLinks
    cases chain with
    | done =>
      cases grouping with
      | operand expression =>
        have same : expression = first := isFirst
        rw [climbWithin, parsed, same]
        rfl
      | binary left sign right => simp [Grouping.links] at isLinks
    | more isAhead found atLeast =>
      -- at this depth no operator is left that binds tightly enough
      have loose := Operator.precedence_lt_tightest (PlacedToken.precedence_of_binary found)
      omega
  | succ depth ih =>
    intro before behind after first links grouping ended parsed chain ordered isFirst isLinks
    have reaches : before.Reaches behind := by
      have reached := operand.reaches before
      rwa [parsed] at reached
    have climbs : ∀ precedence, least ≤ precedence →
        GroupsChains (climbWithin operand depth (precedence + 1)) operand (precedence + 1) := by
      intro precedence atLeast
      exact ih (precedence + 1) (by omega)
    -- the loop starts with a grouping that is the first operand alone
    have single : (Grouping.operand first).IsOrdered := trivial
    have fits : FitsBehind (.operand first) least behind.ahead := by
      simp [FitsBehind, Grouping.links]
    have sameLinks : grouping.links = (Grouping.operand first).links ++ links := by
      simpa [Grouping.links] using isLinks
    rw [climbWithin, run_bind, parsed]
    exact run_repeatWithin_of_chain climbs (ended.of_reaches reaches) chain single fits ordered
      isFirst sameLinks (Nat.lt_succ_self _)

end Parser

/-- An expression takes a whole sequence of operands and operators that continue the line, and its
tree is the only ordered grouping of the sequence. -/
theorem expression_groups_by_precedence (inner : Inner) {before behind after : ParseState}
    {first : Expr} {links : List Link} (ended : before.IsEnded)
    (parsed : (operandOf inner).run before = (some first, behind))
    (chain : OperatorChain (operandOf inner) 0 behind after links) :
    ∃ grouping : Grouping,
      (∀ other : Grouping, other.IsOrdered ∧ other.first = first ∧ other.links = links ↔
        other = grouping) ∧
      (expressionOf inner).run before = (some grouping.expression, after) := by
  obtain ⟨grouping, ordered, isFirst, isLinks⟩ := Grouping.exists_isOrdered first links
  refine ⟨grouping, ?_, ?_⟩
  · intro other
    constructor
    · rintro ⟨otherOrdered, otherFirst, otherLinks⟩
      exact otherOrdered.unique ordered (otherFirst.trans isFirst.symm)
        (otherLinks.trans isLinks.symm)
    · rintro rfl
      exact ⟨ordered, isFirst, isLinks⟩
  · exact groupsChains_climbWithin (operandOf inner) tightest 0 (Nat.le_refl _) ended parsed chain
      ordered isFirst isLinks

/-- The tokens of `a - b * c` with a further minus sign and a `d` on the next line. -/
def differenceInput : List PlacedToken :=
  [⟨⟨.identifier "a", ⟨1, 2⟩, "a"⟩, true⟩, ⟨⟨.operator .minus, ⟨3, 4⟩, "-"⟩, true⟩,
    ⟨⟨.identifier "b", ⟨5, 6⟩, "b"⟩, true⟩, ⟨⟨.operator .asterisk, ⟨7, 8⟩, "*"⟩, true⟩,
    ⟨⟨.identifier "c", ⟨9, 10⟩, "c"⟩, true⟩, ⟨⟨.operator .minus, ⟨11, 12⟩, "-"⟩, false⟩,
    ⟨⟨.identifier "d", ⟨12, 13⟩, "d"⟩, true⟩]

/-- The state in front of those of the tokens that are left. -/
def differenceState (taken : Nat) : ParseState :=
  .fresh ⟨⟨.endOfInput, ⟨13, 13⟩, ""⟩, true⟩ (differenceInput.drop taken)

/-- A name of one letter as an operand. -/
def letterAt (name : String) (start : Nat) : Expr :=
  .ofForm ⟨start, start + 1⟩ (.reference ⟨name, ⟨start, start + 1⟩⟩ none)

/-- The difference whose right operand is the product. -/
def differenceGrouping : Grouping :=
  .binary (.operand (letterAt "a" 1)) ⟨.minus, ⟨3, 4⟩⟩
    (.binary (.operand (letterAt "b" 5)) ⟨.asterisk, ⟨7, 8⟩⟩ (.operand (letterAt "c" 9)))

/-- The product is grouped first, and the expression ends with the line. -/
theorem difference_groups_product :
    (expressionOf (innerWithin 1)).run (differenceState 0) =
      (some differenceGrouping.expression, differenceState 5) := by
  have chain : OperatorChain (operandOf (innerWithin 1)) 0 (differenceState 1) (differenceState 5)
      [⟨⟨.minus, ⟨3, 4⟩⟩, letterAt "b" 5⟩, ⟨⟨.asterisk, ⟨7, 8⟩⟩, letterAt "c" 9⟩] := by
    apply OperatorChain.more rfl rfl (Nat.zero_le _) rfl
    apply OperatorChain.more rfl rfl (Nat.zero_le _) rfl
    apply OperatorChain.done
    -- the sign on the next line does not continue the one in front of it
    rintro ⟨first, isFirst, sign, precedence, found, _⟩
    cases isFirst
    cases found
  have ended : (differenceState 0).IsEnded := rfl
  have parsed : (operandOf (innerWithin 1)).run (differenceState 0) =
      (some (letterAt "a" 1), differenceState 1) := rfl
  obtain ⟨grouping, isOnly, run⟩ := expression_groups_by_precedence (innerWithin 1) ended parsed chain
  have ordered : differenceGrouping.IsOrdered := by
    simp [differenceGrouping, Grouping.IsOrdered, Grouping.links, Link.precedence]
    decide
  rw [run, ← (isOnly differenceGrouping).mp ⟨ordered, rfl, rfl⟩]

end Cadence
