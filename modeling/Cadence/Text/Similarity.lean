/-!
# The similarity of two spellings

A number between zero, for nothing in common, and one, for equal spellings. It grows with the
characters that both share at nearly the same place, and falls with the number of those that have
to change places.
-/
namespace Cadence.Text

section

variable {α : Type} [DecidableEq α]

/-- How far apart the places of a shared item may be. -/
def similarityRange (first second : List α) : Nat := max first.length second.length / 2 - 1

/-- Take the first item that equals `item` out of a list, if it lies at a position between the two
bounds, both included. Items that are taken already have left a gap. -/
def takeNear (item : α) (low high : Nat) : List (Option α) → Option (List (Option α))
  | [] => none
  | other :: rest =>
    if low = 0 ∧ other = some item then some (none :: rest)
    else if high = 0 then none
    else (takeNear item (low - 1) (high - 1) rest).map (other :: ·)

/-- The items of the list that starts at `position` that are also near that place in the other
list, and what is left of the other list. -/
def shareFrom (range position : Nat) : List α → List (Option α) → List α × List (Option α)
  | [], other => ([], other)
  | item :: rest, other =>
    match takeNear item (position - range) (position + range) other with
    | some left =>
      let (shared, left) := shareFrom range (position + 1) rest left
      (item :: shared, left)
    | none => shareFrom range (position + 1) rest other

/-- The shared items in the order of the first list and in that of the second one. -/
def shared (first second : List α) : List α × List α :=
  let (taken, left) :=
    shareFrom (similarityRange first second) 0 first (second.map some)
  (taken, (second.zip left).filterMap fun (item, other) => if other.isNone then some item else none)

/-- The similarity of two lists. -/
def similarity (first second : List α) : Float :=
  if first = [] ∧ second = [] then 1
  else
    let (forward, backward) := shared first second
    let matching := forward.length
    let moved := ((forward.zip backward).countP fun (left, right) => left ≠ right) / 2
    if matching = 0 then 0
    else
      (matching.toFloat / first.length.toFloat + matching.toFloat / second.length.toFloat +
        (matching - moved).toFloat / matching.toFloat) / 3

end

/-- Whether two spellings are so similar that one may have been meant by the other. -/
def isSimilar (score : Float) : Bool := score > 0.7

/-- Put a candidate behind all that are at most as similar. -/
def insertByScore (score : Float) (candidate : String) :
    List (Float × String) → List (Float × String)
  | [] => [(score, candidate)]
  | (other, name) :: rest =>
    if other > score then (score, candidate) :: (other, name) :: rest
    else (other, name) :: insertByScore score candidate rest

/-- The candidates that may have been meant where something else is written, the most similar one
last. -/
def similarNames (written : String) (candidates : List String) : List String :=
  let scored := candidates.foldl (fun found candidate =>
    let score := similarity written.toList candidate.toList
    if isSimilar score then insertByScore score candidate found else found) []
  scored.map Prod.snd

end Cadence.Text
