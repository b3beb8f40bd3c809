import Cadence.Syntax.Tree

/-!
# Operands grouped by precedence

Operands with operators between them can be grouped in many ways. A grouping is ordered if every
operator binds at most as tightly as the operators to its left and less tightly than those to its
right. A sequence of operands and operators has exactly one ordered grouping.
-/
namespace Cadence

/-- An operator between two operands and the operand to its right. -/
structure Link where
  sign : Spanned Operator
  operand : Expr

/-- How tightly the operator of a link binds. -/
def Link.precedence (link : Link) : Nat := link.sign.value.precedence?.getD 0

/-- Operands that are grouped by the operators between them. -/
inductive Grouping where
  | operand (expression : Expr)
  | binary (left : Grouping) (sign : Spanned Operator) (right : Grouping)

namespace Grouping

/-- The first operand. -/
def first : Grouping → Expr
  | operand expression => expression
  | binary left _ _ => left.first

/-- The operators and the operands behind the first one, from left to right. -/
def links : Grouping → List Link
  | operand _ => []
  | binary left sign right => left.links ++ ⟨sign, right.first⟩ :: right.links

/-- The tree that the grouping stands for. -/
def expression : Grouping → Expr
  | operand expression => expression
  | binary left sign right =>
    .ofForm (left.expression.span.through right.expression.span)
      (.binary left.expression sign right.expression)

/-- Every operator binds at most as tightly as those to its left, and less tightly than those to its
right. -/
def IsOrdered : Grouping → Prop
  | operand _ => True
  | binary left sign right =>
    left.IsOrdered ∧ right.IsOrdered ∧
      (∀ link ∈ left.links, Link.precedence ⟨sign, right.first⟩ ≤ link.precedence) ∧
      ∀ link ∈ right.links, Link.precedence ⟨sign, right.first⟩ < link.precedence

/-- The grouping with a further operator and operand behind it. -/
def push : Grouping → Link → Grouping
  | operand expression, link => binary (operand expression) link.sign (operand link.operand)
  | binary left sign right, link =>
    if link.precedence ≤ Link.precedence ⟨sign, right.first⟩ then
      binary (binary left sign right) link.sign (operand link.operand)
    else binary left sign (right.push link)

variable {grouping : Grouping}

@[simp]
theorem first_push (link : Link) : (grouping.push link).first = grouping.first := by
  induction grouping with
  | operand expression => rfl
  | binary left sign right =>
    rw [push]
    split <;> rfl

@[simp]
theorem links_push (link : Link) : (grouping.push link).links = grouping.links ++ [link] := by
  induction grouping with
  | operand expression => rfl
  | binary left sign right _ ih =>
    rw [push]
    split
    · rfl
    · simp [links, ih]

/-- The operator at the root of an ordered grouping binds least tightly. -/
theorem IsOrdered.root_le {left right : Grouping} {sign : Spanned Operator}
    (ordered : (binary left sign right).IsOrdered) :
    ∀ link ∈ (binary left sign right).links, Link.precedence ⟨sign, right.first⟩ ≤ link.precedence := by
  obtain ⟨_, _, atLeast, above⟩ := ordered
  intro link member
  rcases List.mem_append.mp member with before | rest
  · exact atLeast link before
  · rcases List.mem_cons.mp rest with rfl | behind
    · exact Nat.le_refl _
    · exact Nat.le_of_lt (above link behind)

theorem IsOrdered.push (ordered : grouping.IsOrdered) (link : Link) :
    (grouping.push link).IsOrdered := by
  induction grouping with
  | operand expression => simp [Grouping.push, IsOrdered, links]
  | binary left sign right _ ih =>
    rw [Grouping.push]
    split
    next looser =>
      -- the new operator becomes the root, and the old root bounds all that is now to its left
      refine ⟨ordered, trivial, fun other member => ?_, by simp [links]⟩
      exact Nat.le_trans looser (ordered.root_le other member)
    next tighter =>
      obtain ⟨leftOrdered, rightOrdered, atLeast, above⟩ := ordered
      -- the new operator goes to the right of the root, whose bound it meets by the choice of the
      -- branch
      refine ⟨leftOrdered, ih rightOrdered, by simpa using atLeast, ?_⟩
      simp only [links_push, first_push, List.mem_append, List.mem_singleton]
      rintro other (old | rfl)
      · exact above other old
      · exact Nat.not_le.mp tighter

/-- Every sequence of operands and operators has an ordered grouping. -/
theorem exists_isOrdered (first : Expr) (links : List Link) :
    ∃ grouping : Grouping, grouping.IsOrdered ∧ grouping.first = first ∧ grouping.links = links := by
  suffices extended : ∀ start : Grouping, start.IsOrdered → ∃ grouping : Grouping,
      grouping.IsOrdered ∧ grouping.first = start.first ∧ grouping.links = start.links ++ links by
    exact extended (operand first) trivial
  induction links with
  | nil => exact fun start ordered => ⟨start, ordered, rfl, by simp⟩
  | cons link rest ih =>
    intro start ordered
    obtain ⟨grouping, isOrdered, same, all⟩ := ih (start.push link) (ordered.push link)
    exact ⟨grouping, isOrdered, by simpa using same, by simpa using all⟩

/-- Where a sequence of links is split by the loosest of its operators, the last one if there are
several. -/
theorem split_unique {before other behind rest : List Link} {link root : Link}
    (same : before ++ link :: behind = other ++ root :: rest)
    (atLeast : ∀ left ∈ before, link.precedence ≤ left.precedence)
    (above : ∀ right ∈ behind, link.precedence < right.precedence)
    (otherAtLeast : ∀ left ∈ other, root.precedence ≤ left.precedence)
    (otherAbove : ∀ right ∈ rest, root.precedence < right.precedence) :
    before = other ∧ link = root ∧ behind = rest := by
  -- were the two roots at different places, each would be to the right of the other one in one
  -- list: one order would be strict in both directions
  rcases List.append_eq_append_iff.mp same with ⟨shift, rfl, tail⟩ | ⟨shift, rfl, tail⟩
  · cases shift with
    | nil => simpa using tail
    | cons first shift =>
      obtain ⟨rfl, rfl⟩ := List.cons.inj tail
      have low := otherAtLeast link (by simp)
      have high := above root (by simp)
      omega
  · cases shift with
    | nil => simpa [eq_comm] using tail
    | cons first shift =>
      obtain ⟨rfl, rfl⟩ := List.cons.inj tail
      have low := atLeast root (by simp)
      have high := otherAbove link (by simp)
      omega

/-- A sequence of operands and operators has at most one ordered grouping. -/
theorem IsOrdered.unique {other : Grouping} (ordered : grouping.IsOrdered)
    (otherOrdered : other.IsOrdered) (start : grouping.first = other.first)
    (same : grouping.links = other.links) : grouping = other := by
  induction grouping generalizing other with
  | operand expression =>
    cases other with
    | operand expression => exact congrArg operand start
    | binary left sign right => simp [links] at same
  | binary left sign right leftIh rightIh =>
    cases other with
    | operand expression => simp [links] at same
    | binary otherLeft otherSign otherRight =>
      obtain ⟨leftOrdered, rightOrdered, atLeast, above⟩ := ordered
      obtain ⟨otherLeftOrdered, otherRightOrdered, otherAtLeast, otherAbove⟩ := otherOrdered
      -- the same links have the same loosest operator last, and so the two roots coincide
      obtain ⟨before, root, behind⟩ := split_unique same atLeast above otherAtLeast otherAbove
      obtain ⟨rfl, inner⟩ := Link.mk.inj root
      rw [leftIh leftOrdered otherLeftOrdered start before,
        rightIh rightOrdered otherRightOrdered inner behind]

end Grouping

end Cadence
