/-!
# The distance between two spellings

The least number of insertions, removals and replacements of a character that lead from one
spelling to the other.
-/
namespace Cadence.Text

section

variable {α : Type} [DecidableEq α]

/-- From the distances of `second`'s prefixes to some list to those to the list with `item` added.
The numbers are given for the prefixes in ascending order, `diagonal` is the one of the prefix
before them, and `left` the new one of that prefix. -/
def distanceRow (item : α) (diagonal left : Nat) : List α → List Nat → List Nat
  | other :: others, up :: row =>
    let cost := min (min (up + 1) (left + 1)) (diagonal + if item = other then 0 else 1)
    cost :: distanceRow item up cost others row
  | _, _ => []

/-- The rows for the prefixes of `first`, starting at one of length `length`. -/
def distanceRows (second : List α) : List α → Nat → List Nat → Nat
  | [], length, row => row.getLastD length
  | item :: items, length, row =>
    distanceRows second items (length + 1) (distanceRow item length (length + 1) second row)

/-- The edit distance of two lists. -/
def editDistance (first second : List α) : Nat :=
  distanceRows second first 0 ((List.range second.length).map (· + 1))

end

end Cadence.Text
