/-!
# Sorted lists without repetition

A set whose elements are kept in ascending order.
-/
namespace Cadence.Sorted

variable {α : Type} [Ord α]

/-- Put an item where it belongs, unless it is there. -/
def insert (item : α) : List α → List α
  | [] => [item]
  | first :: rest =>
    match compare item first with
    | .lt => item :: first :: rest
    | .eq => first :: rest
    | .gt => first :: insert item rest

/-- The items in ascending order, each once. -/
def ofList (items : List α) : List α := items.foldl (fun sorted item => insert item sorted) []

end Cadence.Sorted
