import Cadence.Token.Reading

/-!
# Signs

The operators, the equals sign and the arrow are made from a few characters and may begin with one
another. They are read character by character as long as the characters begin some sign; a comment
that opens ends them.
-/
namespace Cadence

/-- The spelling of every sign. -/
def signs : List (List Char × Lexeme) :=
  Operator.all.map (fun operator => (operator.name.toList, .operator operator)) ++
    [(Punctuation.assign.symbol.toList, .punctuation .assign),
      (Punctuation.thinArrowRight.symbol.toList, .punctuation .thinArrowRight)]

/-- Whether a sign can start with the character. -/
def isSignStart (character : Char) : Bool :=
  ['+', '-', '*', '/', '%', '\\', '&', '|', '~', '<', '>', '=', '!', '^'].contains character

/-- Whether a comment starts here. -/
def opensComment : List Char → Bool
  | '/' :: '#' :: _ => true
  | '/' :: '*' :: _ => true
  | _ => false

/-- The candidates that go on with the character, without it. -/
def advance (character : Char) (candidates : List (List Char × Lexeme)) :
    List (List Char × Lexeme) :=
  candidates.filterMap fun (spelling, lexeme) =>
    match spelling with
    | first :: rest => if first = character then some (rest, lexeme) else none
    | [] => none

/-- How many characters begin one of the candidates, and what is left of these candidates. -/
def munch (candidates : List (List Char × Lexeme)) (started : Bool) :
    List Char → Nat × List (List Char × Lexeme)
  | [] => (0, candidates)
  | character :: rest =>
    if started ∧ opensComment (character :: rest) then (0, candidates)
    else
      match advance character candidates with
      | [] => (0, candidates)
      | advanced =>
        let (count, left) := munch advanced true rest
        (count + 1, left)

/-- Read the sign at the start of a text. -/
def readSign (text : List Char) : Reading :=
  let (count, left) := munch signs false text
  match left.find? fun candidate => candidate.1.isEmpty with
  | some (_, lexeme) => .token (count - 1) lexeme
  | none => .fault text (count - 1) (.invalidOperator (String.ofList (text.take count)))

end Cadence
