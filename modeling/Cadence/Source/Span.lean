/-!
# Spans of source code

A span is a pair of byte indices: where something starts and where it ends. The indices are counted
through all files of a source map, or within one file, as the caller says.

A span that has been put together from two others may end before it starts. `Span.IsOrdered` says
that it does not, and the checked operations give nothing in that case or if an index would leave
the range of 32 bits.
-/
namespace Cadence.Source

/-- A stretch of source code: `start` is its first byte and `stop` the one behind its last. -/
structure Span where
  start : Nat
  stop : Nat
  deriving DecidableEq, Repr, Inhabited

namespace Span

/-- The span of something whose place is not known. No file of a map contains it. -/
def unknown : Span := ⟨0, 0⟩

/-- The empty span at an index. -/
def emptyAt (index : Nat) : Span := ⟨index, index⟩

def IsOrdered (span : Span) : Prop := span.start ≤ span.stop

instance (span : Span) : Decidable span.IsOrdered := by
  unfold IsOrdered
  infer_instance

def length (span : Span) : Nat := span.stop - span.start

def isEmpty (span : Span) : Bool := span.start = span.stop

/-- Whether the index lies in the span or directly behind it. -/
def contains (span : Span) (index : Nat) : Bool :=
  span.start ≤ index && index ≤ span.stop

/-- Where the index lies: in front of the span, in it, or behind it. -/
def relate (span : Span) (index : Nat) : Ordering :=
  if index < span.start then .lt
  else if span.stop ≤ index then .gt
  else .eq

/-- From the start of this span to the end of another one. -/
def through (span other : Span) : Span := ⟨span.start, other.stop⟩

/-- From the start of this span to the end of another one, if there is one. -/
def throughOption (span : Span) (other : Option Span) : Span :=
  (other.map span.through).getD span

/-- From the start of the first span of a list to the end of the last one. -/
def ofList? (spans : List Span) : Option Span :=
  match spans.head?, spans.getLast? with
  | some first, some last => some (first.through last)
  | _, _ => none

/-- Both ends moved forward. -/
def shift (span : Span) (amount : Nat) : Span := ⟨span.start + amount, span.stop + amount⟩

/-- Both ends moved back. -/
def unshift (span : Span) (amount : Nat) : Span := ⟨span.start - amount, span.stop - amount⟩

/-- Ordered by the start, then by the end. -/
protected def compare (left right : Span) : Ordering :=
  (compare left.start right.start).then (compare left.stop right.stop)

/-- The text `start..stop`. -/
def text (span : Span) : String := toString span.start ++ ".." ++ toString span.stop

/-- The number of byte indices. -/
def indexLimit : Nat := UInt32.size

/-- The span itself if its start is not behind its end and both are indices. -/
def checked? (span : Span) : Option Span :=
  if span.IsOrdered ∧ span.stop < indexLimit then some span else none

/-- `unshift`, where no end may go below zero. -/
def unshift? (span : Span) (amount : Nat) : Option Span :=
  if amount ≤ span.start then (span.unshift amount).checked? else none

theorem checked?_eq_some_iff {span result : Span} :
    span.checked? = some result ↔ span = result ∧ span.IsOrdered ∧ span.stop < indexLimit := by
  unfold checked?
  split
  next ordered => simp [ordered]
  next unordered => simp [unordered]

theorem start_through (span other : Span) : (span.through other).start = span.start := rfl

theorem stop_through (span other : Span) : (span.through other).stop = other.stop := rfl

end Span

end Cadence.Source
