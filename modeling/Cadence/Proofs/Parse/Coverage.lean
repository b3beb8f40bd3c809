import Cadence.Proofs.Parse.Grammar
import Cadence.Proofs.Syntax.Expressions

/-!
# The tokens of a tree

Each part of a tree stands for a run of tokens: those that were taken for it. Its span goes from the
start of the first one to the end of the last one. The runs of its own parts follow each other
within this run, with signs and names between them; only where something could not be parsed, other
tokens are left over, and then they were skipped by a parser that failed.
-/
namespace Cadence

open Source (Span)
open Cadence.Parser (innerWithin recovering)

def StartsAt (index : Nat) (tokens : List PlacedToken) : Prop :=
  ∃ first ∈ tokens.head?, first.token.span.start = index

def EndsAt (index : Nat) (tokens : List PlacedToken) : Prop :=
  ∃ last ∈ tokens.getLast?, last.token.span.stop = index

/-- The span goes from the start of the first of the tokens to the end of the last one. -/
structure IsSpanOf (span : Span) (tokens : List PlacedToken) : Prop where
  startsAt : StartsAt span.start tokens
  endsAt : EndsAt span.stop tokens

theorem StartsAt.append {index : Nat} {tokens : List PlacedToken} (starts : StartsAt index tokens)
    (behind : List PlacedToken) : StartsAt index (tokens ++ behind) := by
  obtain ⟨first, member, same⟩ := starts
  obtain ⟨rest, rfl⟩ := List.head?_eq_some_iff.mp member
  exact ⟨first, rfl, same⟩

theorem EndsAt.append {index : Nat} {tokens : List PlacedToken} (ends : EndsAt index tokens)
    (front : List PlacedToken) : EndsAt index (front ++ tokens) := by
  obtain ⟨last, member, same⟩ := ends
  exact ⟨last, by simp [Option.mem_def.mp member], same⟩

theorem isSpanOf_singleton (placed : PlacedToken) : IsSpanOf placed.token.span [placed] :=
  ⟨⟨placed, rfl, rfl⟩, ⟨placed, rfl, rfl⟩⟩

/-- A piece of a sequence of tokens: a part of a tree, or what stands between two of them. -/
structure Piece where
  /-- The span of a part of a tree. -/
  span? : Option Span
  covers : List PlacedToken → Prop

/-- The pieces make up the tokens, in order and without a rest. -/
def Sequence : List Piece → List PlacedToken → Prop
  | [], tokens => tokens = []
  | piece :: rest, tokens =>
    ∃ own behind, tokens = own ++ behind ∧ piece.covers own ∧ Sequence rest behind

theorem sequence_append {left right : List Piece} {tokens : List PlacedToken} :
    Sequence (left ++ right) tokens ↔
      ∃ front behind, tokens = front ++ behind ∧ Sequence left front ∧ Sequence right behind := by
  induction left generalizing tokens with
  | nil =>
    constructor
    · exact fun sequence => ⟨[], tokens, rfl, rfl, sequence⟩
    · rintro ⟨_, behind, rfl, rfl, sequence⟩
      exact sequence
  | cons piece left ih =>
    constructor
    · rintro ⟨own, behind, rfl, covers, sequence⟩
      obtain ⟨front, last, rfl, first, second⟩ := ih.mp sequence
      exact ⟨own ++ front, last, by simp, ⟨own, front, rfl, covers, first⟩, second⟩
    · rintro ⟨front, last, rfl, ⟨own, middle, rfl, covers, first⟩, second⟩
      exact ⟨own, middle ++ last, by simp, covers, ih.mpr ⟨middle, last, rfl, first, second⟩⟩

theorem sequence_singleton {piece : Piece} {tokens : List PlacedToken} :
    Sequence [piece] tokens ↔ piece.covers tokens := by
  simp [Sequence]

/-- One more piece at the end. -/
theorem Sequence.snoc {pieces : List Piece} {piece : Piece} {tokens own : List PlacedToken}
    (sequence : Sequence pieces tokens) (covers : piece.covers own) :
    Sequence (pieces ++ [piece]) (tokens ++ own) :=
  sequence_append.mpr ⟨tokens, own, rfl, sequence, sequence_singleton.mpr covers⟩

theorem Sequence.append {left right : List Piece} {front behind : List PlacedToken}
    (first : Sequence left front) (second : Sequence right behind) :
    Sequence (left ++ right) (front ++ behind) :=
  sequence_append.mpr ⟨front, behind, rfl, first, second⟩

/-- Every piece covers a run of the tokens. -/
theorem Sequence.exists_covers {pieces : List Piece} {piece : Piece} {tokens : List PlacedToken}
    (sequence : Sequence pieces tokens) (member : piece ∈ pieces) :
    ∃ own, own <:+: tokens ∧ piece.covers own := by
  obtain ⟨left, right, rfl⟩ := List.append_of_mem member
  obtain ⟨front, _, rfl, -, own, behind, rfl, covers, -⟩ := sequence_append.mp sequence
  exact ⟨own, ⟨front, behind, by simp⟩, covers⟩

namespace Piece

/-- One token. -/
def one (kind : Lexeme → Prop) : Piece where
  span? := none
  covers tokens := ∃ placed, tokens = [placed] ∧ kind placed.token.lexeme

def sign (lexeme : Lexeme) : Piece := one (· = lexeme)

/-- The token of a name. -/
def name (binder : Identifier) : Piece where
  span? := none
  covers tokens := ∃ placed, tokens = [placed] ∧ placed.token.lexeme = .identifier binder.value ∧
    placed.token.span = binder.span

/-- Tokens between the parts of a tree. -/
def between (allowed : List PlacedToken → Prop) : Piece := ⟨none, allowed⟩

end Piece

/-- Some tokens in any number of pairs of round brackets. -/
inductive Bracketed (inside : List PlacedToken) : List PlacedToken → Prop
  | plain : Bracketed inside inside
  | brackets {opening closing : PlacedToken} {tokens : List PlacedToken} :
      opening.token.lexeme = .punctuation .openingRoundBracket → Bracketed inside tokens →
      closing.token.lexeme = .punctuation .closingRoundBracket →
      Bracketed inside ([opening] ++ tokens ++ [closing])

theorem Bracketed.isWithin {inside tokens : List PlacedToken} (bracketed : Bracketed inside tokens) :
    inside <:+: tokens := by
  induction bracketed with
  | plain => exact List.infix_refl inside
  | brackets _ _ _ ih => exact ih.trans ⟨_, _, rfl⟩

/-- Tokens at which a parser for nodes failed and which were skipped for that reason. -/
def IsFailure (tokens : List PlacedToken) : Prop :=
  ∃ (parser : Parser Node) (before after : ParseState),
    (parser = Parser.node ∨ ∃ depth, parser = (innerWithin depth).node) ∧
    (recovering parser).run before = (some none, after) ∧ before.ahead = tokens ++ after.ahead

/-- Semicolons and tokens that were skipped. -/
inductive IsSkipped : List PlacedToken → Prop
  | nil : IsSkipped []
  | semicolon {tokens : List PlacedToken} {placed : PlacedToken} : IsSkipped tokens →
      placed.token.lexeme = .punctuation .semicolon → IsSkipped (tokens ++ [placed])
  | failure {tokens own : List PlacedToken} : IsSkipped tokens → IsFailure own →
      IsSkipped (tokens ++ own)

/-- At most one token. -/
def IsOptional (kind : Lexeme → Prop) (tokens : List PlacedToken) : Prop :=
  ∀ placed ∈ tokens, tokens = [placed] ∧ kind placed.token.lexeme

/-- Groups of pieces with something of some kind in front of, between and behind them. -/
def scattered (allowed : List PlacedToken → Prop) (groups : List (List Piece)) : List Piece :=
  (groups.flatMap fun group => .between allowed :: group) ++ [.between allowed]

section Scattered

variable {allowed : List PlacedToken → Prop} {groups : List (List Piece)}
  {tokens own behind : List PlacedToken}

theorem Sequence.scattered_snoc {group : List Piece}
    (sequence : Sequence (scattered allowed groups) tokens) (covers : Sequence group own)
    (permitted : allowed behind) :
    Sequence (scattered allowed (groups ++ [group])) (tokens ++ own ++ behind) := by
  have more : Sequence (_ ++ [.between allowed]) _ := (sequence.append covers).snoc permitted
  simpa [scattered] using more

theorem Sequence.scattered_extend (sequence : Sequence (scattered allowed groups) tokens)
    (lasting : ∀ ⦃last⦄, allowed last → allowed (last ++ behind)) :
    Sequence (scattered allowed groups) (tokens ++ behind) := by
  obtain ⟨front, last, rfl, first, permitted⟩ := sequence_append.mp sequence
  rw [List.append_assoc]
  exact first.snoc (lasting (sequence_singleton.mp permitted))

theorem Sequence.scattered_nil (permitted : allowed []) : Sequence (scattered allowed []) [] :=
  sequence_singleton.mpr permitted

end Scattered

/-- The annotation was parsed from the tokens. -/
structure Annotation.Covers (annotated : Annotation) (tokens : List PlacedToken) : Prop where
  isSpanOf : IsSpanOf annotated.span tokens
  parsed : ∃ before after : ParseState, Parser.type.run before = (some annotated, after) ∧
    before.ahead = tokens ++ after.ahead

def Annotation.piece (annotated : Annotation) : Piece := ⟨annotated.span, annotated.Covers⟩

/-- A part behind a mark, if there is one. -/
def ledPieces (mark : Lexeme) (part : Option Piece) : List Piece :=
  (part.map fun present => [.sign mark, present]).getD []

/-- The name of a parameter and a colon, or nothing. -/
def IsParameterName (parameter : Member) (tokens : List PlacedToken) : Prop :=
  (tokens = [] ∧ parameter.binder = ⟨Ty.anonymous, parameter.type.span⟩) ∨
    ∃ name colon, tokens = [name, colon] ∧
      name.token.lexeme.parameterName? = some parameter.binder.value ∧
      name.token.span = parameter.binder.span ∧ colon.token.lexeme = .punctuation .colon

/-- What a list of parameters with a result consists of, given what a type stands for. -/
def signaturePieces (piece : Annotation → Piece) (parameters : List Member) (isVariadic : Bool)
    (result : Option Annotation) : List Piece :=
  [.sign (.punctuation .openingRoundBracket)] ++
    scattered (IsOptional (· = .punctuation .comma))
      ((parameters.map fun parameter =>
          [.between (IsParameterName parameter), piece parameter.type]) ++
        if isVariadic then [[.sign (.punctuation .varargs)]] else []) ++
    [.sign (.punctuation .closingRoundBracket)] ++
    ledPieces (.punctuation .thinArrowRight) (result.map piece)

/-- The mark that a procedure is defined elsewhere. -/
def externalPieces (isExternal : Bool) : List Piece :=
  if isExternal then [.sign (.keyword .external)] else []

/-- What a procedure says in front of its body. -/
def ProcedureHead.pieces (head : ProcedureHead) : List Piece :=
  externalPieces head.isExternal ++
    [.sign (.keyword .proc), .between (IsOptional fun _ => True)] ++
    signaturePieces Annotation.piece head.parameters head.isVariadic head.result

def Member.fieldPieces (field : Member) : List Piece :=
  [.name field.binder, .sign (.punctuation .colon), field.type.piece]

/-- A token that separates the fields of a struct. -/
def IsSeparator (lexeme : Lexeme) : Prop :=
  lexeme = .punctuation .comma ∨ lexeme = .punctuation .semicolon

def Struct.pieces (declared : Struct) : List Piece :=
  [.sign (.keyword .struct), .between (IsOptional fun _ => True),
      .sign (.punctuation .openingCurlyBracket)] ++
    scattered (IsOptional IsSeparator) (declared.fields.map Member.fieldPieces) ++
    [.sign (.punctuation .closingCurlyBracket)]

def BindingHead.pieces (head : BindingHead) : List Piece :=
  [.one fun lexeme => ∃ word, lexeme = .keyword word ∧ IsBinding word head.kind,
    .name head.binder] ++
    Cadence.ledPieces (.punctuation .colon) (head.type.map Annotation.piece)

/-- A node with the given parts. -/
def Piece.node (span : Span) (pieces : List Piece) : Piece :=
  ⟨span, fun tokens => IsSpanOf span tokens ∧ Sequence pieces tokens⟩

/-- An expression with the given parts, possibly in brackets. -/
def Piece.expression (span : Span) (pieces : List Piece) : Piece :=
  ⟨span, fun tokens => IsSpanOf span tokens ∧
    ∃ inside, Bracketed inside tokens ∧ Sequence pieces inside⟩

mutual

/-- The parts of a node, with the tokens between them. -/
def Node.pieces : Node → List Piece
  | .procedure _ head body => head.pieces ++ Expr.bodyPieces body
  | .struct _ declared => declared.pieces
  | .binding _ head value => head.pieces ++ Expr.ledPieces (.punctuation .assign) value
  | .load _ path => [.sign (.directive "load"), .sign (.text path.value)]
  | .expression inner => [.expression inner.span inner.pieces]
  | .assignment _ target operator value =>
    [.expression target.span target.pieces,
      .one (IsAssignment · (operator.map Spanned.value)),
      .expression value.span value.pieces]

def Expr.pieces : Expr → List Piece
  | .mk _ form => form.pieces

/-- The parts of an expression, with the tokens between them. -/
def Form.pieces : Form → List Piece
  | .bool value => [.one fun lexeme => ∃ type, IsLiteral lexeme type (.bool value)]
  | .integer value radix =>
    [.one fun lexeme => ∃ type, IsLiteral lexeme type (.integer value radix)]
  | .real literal => [.one fun lexeme => ∃ type, IsLiteral lexeme type (.real literal)]
  | .text content => [.one fun lexeme => ∃ type, IsLiteral lexeme type (.text content)]
  | .character value =>
    [.between fun tokens => Sequence [.sign (.character value)] tokens ∨
      Sequence [.sign (.directive "char"), .sign (.text (String.ofList [value]))] tokens]
  | .reference binder _ => [.name binder]
  | .field target field =>
    [.expression target.span target.pieces, .sign (.punctuation .dot), .name field]
  | .call callee arguments =>
    .expression callee.span callee.pieces :: .sign (.punctuation .openingRoundBracket) ::
      scattered (IsOptional (· = .punctuation .comma)) (Expr.groups arguments) ++
        [.sign (.punctuation .closingRoundBracket)]
  | .binary left operator right =>
    [.expression left.span left.pieces, .sign (.operator operator.value),
      .expression right.span right.pieces]
  | .unary operator operand =>
    [.sign (.operator operator.value), .expression operand.span operand.pieces]
  | .cast operand type =>
    [.expression operand.span operand.pieces, .sign (.keyword .as_), type.piece]
  | .block nodes =>
    .sign (.punctuation .openingCurlyBracket) :: scattered IsSkipped (Node.groups nodes) ++
      [.sign (.punctuation .closingCurlyBracket)]
  | .conditional isNegated condition consequent alternative =>
    [.sign (.keyword (if isNegated then .unless_ else .if_)),
      .expression condition.span condition.pieces,
      .expression consequent.span consequent.pieces] ++
      Expr.ledPieces (.keyword .else_) alternative
  | .loop isNegated condition body alternative =>
    [.sign (.keyword (if isNegated then .until_ else .while_)),
      .expression condition.span condition.pieces, .expression body.span body.pieces] ++
      Expr.ledPieces (.keyword .else_) alternative
  | .new type => [.sign (.keyword .new), type.piece]
  | .delete operand => [.sign (.keyword .delete), .expression operand.span operand.pieces]
  | .defer node => [.sign (.keyword .defer), .node node.span node.pieces]
  | .uninitialized => [.sign (.punctuation .uninitialized)]

/-- An expression behind a mark, if there is one. -/
def Expr.ledPieces (mark : Lexeme) : Option Expr → List Piece
  | none => []
  | some inner => [.sign mark, .expression inner.span inner.pieces]

/-- The body of a procedure: an expression behind an equals sign, or a block. -/
def Expr.bodyPieces : Option Expr → List Piece
  | none => []
  | some body => [.between (IsOptional (· = .punctuation .assign)),
      .expression body.span body.pieces]

def Expr.groups : List Expr → List (List Piece)
  | [] => []
  | first :: rest => [.expression first.span first.pieces] :: Expr.groups rest

def Node.groups : List Node → List (List Piece)
  | [] => []
  | first :: rest => [.node first.span first.pieces] :: Node.groups rest

end

/-- The expression stands for the tokens: its span goes from the first one to the last one, brackets
around it included, and its parts follow each other within them. -/
def Expr.Covers (expression : Expr) (tokens : List PlacedToken) : Prop :=
  (Piece.expression expression.span expression.pieces).covers tokens

/-- The node stands for the tokens. -/
def Node.Covers (node : Node) (tokens : List PlacedToken) : Prop :=
  (Piece.node node.span node.pieces).covers tokens

/-- The nodes stand for some of the tokens, in order. The others separate them or were skipped. -/
def Node.CoverAll (nodes : List Node) (tokens : List PlacedToken) : Prop :=
  Sequence (scattered IsSkipped (Node.groups nodes)) tokens

theorem Expr.groups_eq (expressions : List Expr) :
    Expr.groups expressions =
      expressions.map fun inner => [.expression inner.span inner.pieces] := by
  induction expressions with
  | nil => rfl
  | cons first rest ih => simp [groups, ih]

theorem Node.groups_eq (nodes : List Node) :
    Node.groups nodes = nodes.map fun inner => [.node inner.span inner.pieces] := by
  induction nodes with
  | nil => rfl
  | cons first rest ih => simp [groups, ih]

end Cadence
