/-!
# Quotations, enumerations and amounts in sentences

The pieces of English that messages are put together from.
-/
namespace Cadence.Text

/-- A piece of source text inside a sentence. -/
def quoted (text : String) : String :=
  "‘" ++ text ++ "’"

/-- The word in front of the last item of an enumeration. -/
inductive Conjunction where
  | and
  | or
  deriving DecidableEq, Repr

def Conjunction.word : Conjunction → String
  | .and => "and"
  | .or => "or"

/-- Commas between the items and the conjunction in front of the last one. -/
def listing (conjunction : Conjunction) : List String → String
  | [] => ""
  | [item] => item
  | [item, last] => item ++ " " ++ conjunction.word ++ " " ++ last
  | item :: rest => item ++ ", " ++ listing conjunction rest

/-- The singular form for exactly one thing and the plural form for every other amount. -/
def inflected (amount : Nat) (singular plural : String) : String :=
  if amount = 1 then singular else plural

end Cadence.Text
