/-!
# Differences between two texts

Two texts are cut into pieces at a separator, a common subsequence of the pieces is kept, and every
other piece is removed from the first text or added from the second one. With the empty separator
the pieces are the characters.

The pieces to keep are sought from the end of both texts. A piece that both have there is kept;
otherwise a piece of the first text is left out, unless only leaving out one of the second text
keeps the longest common subsequence within reach. Once a single piece of the second text is left,
it is sought among the remaining pieces of the first text only if the whole second text has no
longer subsequence in common with them than that piece alone; otherwise nothing more is kept. So the
kept pieces are common to both texts, but need not be as many as could be kept.
-/
namespace Cadence.Text

/-- A stretch of the changes that lead from one text to another. -/
inductive Change where
  | kept (text : String)
  | removed (text : String)
  | added (text : String)
  deriving DecidableEq, Repr

/-- What leads from one text to another. -/
structure Changeset where
  changes : List Change
  /-- The number of pieces that are removed or added. -/
  distance : Nat
  deriving DecidableEq, Repr

/-- Cut a text at each of the leftmost occurrences of a separator that is not empty. -/
def cut (separator text : List Char) : List (List Char) :=
  match text with
  | [] => [[]]
  | character :: rest =>
    if separator ≠ [] ∧ separator.isPrefixOf text then
      [] :: cut separator (rest.drop (separator.length - 1))
    else
      match cut separator rest with
      | [] => [[character]]
      | piece :: pieces => (character :: piece) :: pieces
  termination_by text.length

/-- The pieces of a text. The empty separator stands in front of, between and behind all
characters, so the first and the last piece are empty. -/
def pieces (separator text : String) : List String :=
  if separator = "" then
    "" :: text.toList.map (fun character => String.ofList [character]) ++ [""]
  else
    (cut separator.toList text.toList).map String.ofList

/-- The pieces that are compared: without the empty ones that the empty separator brings. -/
def comparedPieces (separator text : String) : List String :=
  if separator = "" then text.toList.map fun character => String.ofList [character]
  else pieces separator text

section CommonPieces

variable {α : Type} [DecidableEq α]

/-- What the beginnings of two lists have in common. -/
structure Common (α : Type) where
  /-- The length of a longest common subsequence. -/
  length : Nat
  /-- The pieces that the search from the end of both keeps, the last one first. -/
  kept : List α
  deriving DecidableEq, Repr

/-- A beginning without any pieces has nothing in common with another one. -/
def Common.none : Common α := ⟨0, []⟩

/-- Keep a piece behind what is kept already. -/
def Common.push (common : Common α) (piece : α) : Common α :=
  ⟨common.length + 1, piece :: common.kept⟩

/-- Go on with the better of two ways: without the last piece of the first list (`up`), or without
that of the second list (`left`), which has to be longer. -/
def Common.prefer (up left : Common α) : Common α :=
  if left.length ≤ up.length then up else left

/-- Go on without the last piece of the first list while the second list has a single piece left.
The search ends here if the `whole` second list has more in common with the rest of the first. -/
def Common.alone (whole up : Common α) : Common α :=
  if up.length < whole.length then { up with kept := [] } else up

/-- From what some pieces have in common with every beginning of the second list, given backward, to
what the same pieces followed by `piece` have; `whole` belongs to the whole second list. -/
def extendRow (whole : Common α) (piece : α) : List α → List (Common α) → List (Common α)
  | [], _ => [.none]
  | other :: others, row =>
    let next := extendRow whole piece others row.tail
    let up := row.headD .none
    let common :=
      if piece = other then (row.tail.headD .none).push piece
      else if others = [] then whole.alone up
      else up.prefer (next.headD .none)
    common :: next

/-- The pieces that the search through two lists keeps. -/
def commonPieces (first second : List α) : List α :=
  let backward := second.reverse
  let row := first.foldl (fun row piece => extendRow (row.headD .none) piece backward row) []
  (row.headD .none).kept.reverse

end CommonPieces

/-- Put the pieces of a stretch together again. -/
def joinPieces (separator : String) (pieces : List String) : String :=
  String.intercalate separator pieces

/-- The longest stretch at the start of three lists on which they agree, and the three rests. -/
def agreeing {α : Type} [DecidableEq α] :
    List α → List α → List α → List α × List α × List α × List α
  | first :: firsts, second :: seconds, third :: thirds =>
    if first = second ∧ second = third then
      let (agreed, rest) := agreeing firsts seconds thirds
      (first :: agreed, rest)
    else ([], first :: firsts, second :: seconds, third :: thirds)
  | firsts, seconds, thirds => ([], firsts, seconds, thirds)

/-- Report a stretch that is not empty. -/
def stretch (change : String → Change) (separator : String) (pieces : List String) : List Change :=
  if pieces = [] then [] else [change (joinPieces separator pieces)]

/-- A kept stretch. A stretch of nothing but the empty pieces at the ends is not reported. -/
def keptStretch (separator : String) (pieces : List String) : List Change :=
  if separator = "" ∧ joinPieces separator pieces = "" then []
  else stretch .kept separator pieces

/-- Walk over both texts along their common pieces. -/
def alignedChanges (separator : String) (first second common : List String) : List Change :=
  if first = [] ∧ second = [] then []
  else
    let (agreed, first', second', common') := agreeing first second common
    let isOther (piece : String) : Bool := common'.head? ≠ some piece
    let (removed, first'') := first'.span isOther
    let (added, second'') := second'.span isOther
    if first''.length + second''.length < first.length + second.length then
      keptStretch separator agreed ++ stretch .removed separator removed ++
        stretch .added separator added ++ alignedChanges separator first'' second'' common'
    else
      stretch .removed separator first ++ stretch .added separator second
  termination_by first.length + second.length

/-- The pieces of a text where the empty text has none in front of a separator. -/
def alignedPieces (separator text : String) : List String :=
  if text = "" then (pieces separator text).tail else pieces separator text

/-- The changes that lead from `before` to `after`. -/
def changeset (before after separator : String) : Changeset :=
  let first := comparedPieces separator before
  let second := comparedPieces separator after
  let common := commonPieces first second
  { changes :=
      alignedChanges separator (alignedPieces separator before) (alignedPieces separator after)
        (alignedPieces separator (joinPieces separator common))
    distance := first.length + second.length - 2 * common.length }

/-- Remove a carriage return at the end. -/
def withoutReturn (line : List Char) : List Char :=
  if line.getLast? = some '\r' then line.dropLast else line

/-- The lines of a text. A line break at the end starts no further line, and a carriage return in
front of a line break belongs to the break. -/
def lines (text : String) : List String :=
  let all := cut ['\n'] text.toList
  let last := (all.getLast?.filter (· ≠ [])).toList
  (all.dropLast.map withoutReturn ++ last).map String.ofList

/-- One line per piece of a stretch, marked by what happens to it. -/
def Change.lines : Change → List String
  | .kept text => (Text.lines text).map ("  " ++ ·)
  | .removed text => (if text = "" then [""] else Text.lines text).map ("- " ++ ·)
  | .added text => (if text = "" then [""] else Text.lines text).map ("+ " ++ ·)

/-- The difference between two texts: lines of both, lines of the first after a minus sign and
lines of the second after a plus sign. -/
def difference (before after separator : String) : String :=
  String.join ((changeset before after separator).changes.flatMap Change.lines
    |>.map (· ++ "\n"))

end Cadence.Text
