/-!
# Passes

The passes over the source code, in the order in which they run.
-/
namespace Cadence

inductive Pass where
  /-- From characters to tokens. -/
  | lexing
  /-- From tokens to syntax trees. -/
  | parsing
  /-- The registration of declarations. -/
  | registration
  /-- The resolution of names. -/
  | resolution
  deriving DecidableEq, Repr

namespace Pass

def all : List Pass := [lexing, parsing, registration, resolution]

def name : Pass → String
  | lexing => "lexer"
  | parsing => "parser"
  | registration => "annotator"
  | resolution => "resolver"

/-- What is done in the pass. -/
def title : Pass → String
  | lexing => "Lexing"
  | parsing => "Parsing"
  | registration => "Semantic Annotation"
  | resolution => "Symbolic Resolution"

def ofName? (name : String) : Option Pass := all.find? fun pass => pass.name = name

/-- The number of passes in front of this one. -/
def rank : Pass → Nat
  | lexing => 0
  | parsing => 1
  | registration => 2
  | resolution => 3

/-- The passes up to this one. -/
def upTo (last : Pass) : List Pass := all.filter fun pass => pass.rank ≤ last.rank

end Pass

end Cadence
