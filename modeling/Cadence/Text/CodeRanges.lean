/-!
# Sets of characters given by ranges

A character property of the Unicode Character Database is a set of code points. It is written down
as a list of ranges, both ends included, and membership is decided by looking through the list.
-/
namespace Cadence.Text

/-- A run of code points from `first` to `last`, both included. -/
structure CodeRange where
  first : Nat
  last : Nat
  deriving DecidableEq, Repr

namespace CodeRange

def contains (range : CodeRange) (character : Char) : Bool :=
  range.first ≤ character.toNat && character.toNat ≤ range.last

end CodeRange

/-- The characters that lie in one of the ranges. -/
def inRanges (ranges : List CodeRange) (character : Char) : Bool :=
  ranges.any fun range => range.contains character

theorem inRanges_append (left right : List CodeRange) (character : Char) :
    inRanges (left ++ right) character = (inRanges left character || inRanges right character) := by
  simp [inRanges]

end Cadence.Text
