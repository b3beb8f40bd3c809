import Cadence.Proofs.Parse.Coverage

/-!
# Parts lie within each other

Where tokens follow each other, so do the spans of the parts that they stand for, and all of them
lie within the span of the whole.
-/
namespace Cadence

open Source (Span)

/-- Tokens that are not empty and follow each other. -/
structure AreOrdered (tokens : List PlacedToken) : Prop where
  each : ∀ placed ∈ tokens, placed.token.span.IsOrdered
  pairwise : tokens.Pairwise fun left right => left.token.span.stop ≤ right.token.span.start

namespace AreOrdered

variable {front behind tokens : List PlacedToken} {span : Span}

theorem of_sublist {fewer : List PlacedToken} (ordered : AreOrdered tokens)
    (sublist : fewer.Sublist tokens) : AreOrdered fewer :=
  ⟨fun placed member => ordered.each placed (sublist.subset member),
    ordered.pairwise.sublist sublist⟩

/-- Merging the span of a token with that of a later one never goes back. -/
theorem through {first last : PlacedToken} (ordered : AreOrdered (front ++ [first] ++ behind))
    (member : last ∈ first :: behind) :
    (first.token.span.through last.token.span).IsOrdered := by
  rcases List.mem_cons.mp member with rfl | later
  · exact ordered.each last (by simp)
  · have follows := (List.pairwise_append.mp ordered.pairwise).2.2 first (by simp) last later
    have := ordered.each first (by simp)
    have := ordered.each last (by simp [later])
    simp only [Span.IsOrdered, Span.through] at *
    omega

theorem bounds (ordered : AreOrdered tokens) (isSpan : IsSpanOf span tokens) :
    ∀ placed ∈ tokens,
      span.start ≤ placed.token.span.start ∧ placed.token.span.stop ≤ span.stop := by
  intro placed member
  constructor
  · obtain ⟨first, isFirst, starts⟩ := isSpan.startsAt
    obtain ⟨rest, rfl⟩ := List.head?_eq_some_iff.mp isFirst
    rw [← starts]
    rcases List.mem_cons.mp member with rfl | later
    · exact Nat.le_refl _
    · exact Nat.le_trans (ordered.each first (by simp))
        ((List.pairwise_cons.mp ordered.pairwise).1 placed later)
  · obtain ⟨last, isLast, ends⟩ := isSpan.endsAt
    obtain ⟨front, rfl⟩ := List.getLast?_eq_some_iff.mp isLast
    rw [← ends]
    rcases List.mem_append.mp member with earlier | same
    · exact Nat.le_trans ((List.pairwise_append.mp ordered.pairwise).2.2 placed earlier last
        (by simp)) (ordered.each last (by simp))
    · obtain rfl := List.mem_singleton.mp same
      exact Nat.le_refl _

theorem isOrdered (ordered : AreOrdered tokens) (isSpan : IsSpanOf span tokens) :
    span.IsOrdered := by
  obtain ⟨first, member, same⟩ := isSpan.startsAt
  have known := List.mem_of_mem_head? member
  have := (ordered.bounds isSpan first known).2
  have := ordered.each first known
  simp only [Span.IsOrdered] at *
  omega

end AreOrdered

/-- The spans follow each other without overlap between two indices. -/
def AreWithin (start stop : Nat) : List Span → Prop
  | [] => start ≤ stop
  | first :: rest => start ≤ first.start ∧ first.IsOrdered ∧ AreWithin first.stop stop rest

/-- The spans of the pieces that are parts of a tree. -/
def partSpans (pieces : List Piece) : List Span := pieces.filterMap Piece.span?

theorem partSpans_scattered (allowed : List PlacedToken → Prop) (groups : List (List Piece)) :
    partSpans (scattered allowed groups) = groups.flatMap partSpans := by
  simp only [partSpans, scattered, List.filterMap_append, List.filterMap_flatMap]
  simp [Piece.between]
  rfl

/-- What a piece covers agrees with its span. -/
def Piece.IsExact (piece : Piece) : Prop :=
  ∀ span ∈ piece.span?, ∀ tokens, piece.covers tokens → IsSpanOf span tokens

theorem Sequence.areWithin {pieces : List Piece} {tokens : List PlacedToken} {start stop : Nat}
    (exactly : ∀ piece ∈ pieces, piece.IsExact) (sequence : Sequence pieces tokens)
    (ordered : AreOrdered tokens) (notEmpty : start ≤ stop)
    (bounds : ∀ placed ∈ tokens, start ≤ placed.token.span.start ∧ placed.token.span.stop ≤ stop) :
    AreWithin start stop (partSpans pieces) := by
  -- what is left of the pieces lies behind the last span, which is where `start` moves to
  induction pieces generalizing tokens start with
  | nil => exact notEmpty
  | cons piece rest ih =>
    obtain ⟨isExact, exactly⟩ := List.forall_mem_cons.mp exactly
    obtain ⟨own, behind, rfl, covers, sequence⟩ := sequence
    have later := ordered.of_sublist (List.sublist_append_right own behind)
    cases known : piece.span? with
    | none =>
      rw [partSpans, List.filterMap_cons_none known]
      exact ih exactly sequence later notEmpty fun placed member => bounds placed (by simp [member])
    | some span =>
      rw [partSpans, List.filterMap_cons_some known]
      have isSpan := isExact span known own covers
      have ownOrdered := ordered.of_sublist (List.sublist_append_left own behind)
      obtain ⟨first, isFirst, starts⟩ := isSpan.startsAt
      obtain ⟨last, isLast, ends⟩ := isSpan.endsAt
      have isFirst := List.mem_of_mem_head? isFirst
      have isLast := List.mem_of_mem_getLast? isLast
      refine ⟨?_, ownOrdered.isOrdered isSpan, ih exactly sequence later ?_ fun placed member => ?_⟩
      · rw [← starts]
        exact (bounds first (by simp [isFirst])).1
      · rw [← ends]
        exact (bounds last (by simp [isLast])).2
      · have follows := (List.pairwise_append.mp ordered.pairwise).2.2 last isLast placed member
        exact ⟨ends ▸ follows, (bounds placed (by simp [member])).2⟩

def AreExact (pieces : List Piece) : Prop := ∀ piece ∈ pieces, piece.IsExact

section Exact

@[simp]
theorem areExact_nil : AreExact [] := nofun

@[simp]
theorem areExact_cons {piece : Piece} {rest : List Piece} :
    AreExact (piece :: rest) ↔ piece.IsExact ∧ AreExact rest := List.forall_mem_cons

@[simp]
theorem areExact_append {left right : List Piece} :
    AreExact (left ++ right) ↔ AreExact left ∧ AreExact right := List.forall_mem_append

@[simp]
theorem isExact_one (kind : Lexeme → Prop) : (Piece.one kind).IsExact := nofun

@[simp]
theorem isExact_sign (lexeme : Lexeme) : (Piece.sign lexeme).IsExact := nofun

@[simp]
theorem isExact_name (binder : Identifier) : (Piece.name binder).IsExact := nofun

@[simp]
theorem isExact_between (allowed : List PlacedToken → Prop) : (Piece.between allowed).IsExact :=
  nofun

@[simp]
theorem isExact_node (span : Span) (pieces : List Piece) : (Piece.node span pieces).IsExact := by
  rintro _ ⟨⟩ tokens covers
  exact covers.1

@[simp]
theorem isExact_expression (span : Span) (pieces : List Piece) :
    (Piece.expression span pieces).IsExact := by
  rintro _ ⟨⟩ tokens covers
  exact covers.1

@[simp]
theorem Annotation.isExact_piece (annotated : Annotation) : annotated.piece.IsExact := by
  rintro _ ⟨⟩ tokens covers
  exact covers.isSpanOf

theorem areExact_scattered {allowed : List PlacedToken → Prop} {groups : List (List Piece)}
    (each : ∀ group ∈ groups, AreExact group) : AreExact (scattered allowed groups) := by
  refine areExact_append.mpr ⟨fun piece member => ?_, by simp⟩
  obtain ⟨group, known, inside⟩ := List.mem_flatMap.mp member
  rcases List.mem_cons.mp inside with rfl | inside
  · exact isExact_between allowed
  · exact each group known piece inside

theorem areExact_ledPieces (mark : Lexeme) {part : Option Piece}
    (known : ∀ piece ∈ part, piece.IsExact) : AreExact (ledPieces mark part) := by
  cases part <;> simp_all [ledPieces]

@[simp]
theorem Annotation.areExact_ledPieces (mark : Lexeme) (annotated : Option Annotation) :
    AreExact (ledPieces mark (annotated.map piece)) :=
  Cadence.areExact_ledPieces mark (by cases annotated <;> simp)

@[simp]
theorem Expr.areExact_ledPieces (mark : Lexeme) (inner : Option Expr) :
    AreExact (Expr.ledPieces mark inner) := by
  cases inner <;> simp [Expr.ledPieces]

@[simp]
theorem Expr.areExact_bodyPieces (body : Option Expr) : AreExact (Expr.bodyPieces body) := by
  cases body <;> simp [Expr.bodyPieces]

@[simp]
theorem ProcedureHead.areExact_pieces (head : ProcedureHead) : AreExact head.pieces := by
  have groups : ∀ group ∈ (head.parameters.map fun parameter =>
        [.between (IsParameterName parameter), parameter.type.piece]) ++
      (if head.isVariadic then [[Piece.sign (.punctuation .varargs)]] else []),
      AreExact group := by
    simp only [List.forall_mem_append, List.forall_mem_map]
    exact ⟨fun _ _ => by simp, by split <;> simp⟩
  have external : AreExact (externalPieces head.isExternal) := by
    rw [externalPieces]
    split <;> simp
  simp [pieces, signaturePieces, areExact_scattered groups, external]

@[simp]
theorem Struct.areExact_pieces (declared : Struct) : AreExact declared.pieces := by
  have groups : ∀ group ∈ declared.fields.map Member.fieldPieces, AreExact group := by
    simp only [List.forall_mem_map]
    exact fun _ _ => by simp [Member.fieldPieces]
  simp [Struct.pieces, areExact_scattered groups]

theorem Node.areExact_pieces (node : Node) : AreExact node.pieces := by
  cases node <;> simp [pieces, BindingHead.pieces]

theorem Form.areExact_pieces (form : Form) : AreExact form.pieces := by
  have arguments (expressions : List Expr) :
      AreExact (scattered (IsOptional (· = .punctuation .comma)) (Expr.groups expressions)) :=
    areExact_scattered (by simp [Expr.groups_eq])
  have elements (nodes : List Node) : AreExact (scattered IsSkipped (Node.groups nodes)) :=
    areExact_scattered (by simp [Node.groups_eq])
  cases form <;> simp [pieces, arguments, elements]

end Exact

theorem Expr.Covers.areWithin {expression : Expr} {tokens : List PlacedToken}
    (covers : expression.Covers tokens) (ordered : AreOrdered tokens) :
    AreWithin expression.span.start expression.span.stop (partSpans expression.pieces) := by
  obtain ⟨info, form⟩ := expression
  obtain ⟨isSpan, inside, bracketed, sequence⟩ := covers
  have bounds := ordered.bounds isSpan
  exact sequence.areWithin form.areExact_pieces (ordered.of_sublist bracketed.isWithin.sublist)
    (ordered.isOrdered isSpan) fun placed member => bounds placed (bracketed.isWithin.subset member)

theorem Node.Covers.areWithin {node : Node} {tokens : List PlacedToken}
    (covers : node.Covers tokens) (ordered : AreOrdered tokens) :
    AreWithin node.span.start node.span.stop (partSpans node.pieces) :=
  covers.2.areWithin node.areExact_pieces ordered (ordered.isOrdered covers.1)
    (ordered.bounds covers.1)

/-- Some run of the tokens has the property. -/
def CoveredIn (covers : List PlacedToken → Prop) (tokens : List PlacedToken) : Prop :=
  ∃ own, own <:+: tokens ∧ covers own

theorem CoveredIn.mono {covers : List PlacedToken → Prop} {fewer tokens : List PlacedToken}
    (covered : CoveredIn covers fewer) (inside : fewer <:+: tokens) : CoveredIn covers tokens := by
  obtain ⟨own, known, holds⟩ := covered
  exact ⟨own, known.trans inside, holds⟩

theorem mem_scattered {allowed : List PlacedToken → Prop} {groups : List (List Piece)}
    {group : List Piece} {piece : Piece} (known : group ∈ groups) (member : piece ∈ group) :
    piece ∈ scattered allowed groups :=
  List.mem_append_left _ (List.mem_flatMap.mpr ⟨group, known, List.mem_cons_of_mem _ member⟩)

theorem Expr.mem_scattered {allowed : List PlacedToken → Prop} {expressions : List Expr}
    {inner : Expr} (member : inner ∈ expressions) :
    Piece.expression inner.span inner.pieces ∈ scattered allowed (Expr.groups expressions) :=
  Cadence.mem_scattered (by rw [groups_eq]; exact List.mem_map_of_mem member) List.mem_cons_self

theorem Node.mem_scattered {allowed : List PlacedToken → Prop} {nodes : List Node}
    {inner : Node} (member : inner ∈ nodes) :
    Piece.node inner.span inner.pieces ∈ scattered allowed (Node.groups nodes) :=
  Cadence.mem_scattered (by rw [groups_eq]; exact List.mem_map_of_mem member) List.mem_cons_self

/-- The expressions stand for runs of the tokens. -/
def AreCoveredIn (expressions : List Expr) (tokens : List PlacedToken) : Prop :=
  ∀ inner ∈ expressions, CoveredIn inner.Covers tokens

theorem areCoveredIn_nil (tokens : List PlacedToken) : AreCoveredIn [] tokens := nofun

theorem AreCoveredIn.append {left right : List Expr} {tokens : List PlacedToken}
    (first : AreCoveredIn left tokens) (second : AreCoveredIn right tokens) :
    AreCoveredIn (left ++ right) tokens := List.forall_mem_append.mpr ⟨first, second⟩

theorem AreCoveredIn.mono {expressions : List Expr} {fewer tokens : List PlacedToken}
    (covered : AreCoveredIn expressions fewer) (inside : fewer <:+: tokens) :
    AreCoveredIn expressions tokens := fun inner member => (covered inner member).mono inside

mutual

theorem Node.areCoveredIn (node : Node) {pieces : List Piece} {tokens : List PlacedToken}
    (sequence : Sequence pieces tokens) (member : .node node.span node.pieces ∈ pieces) :
    AreCoveredIn node.expressions tokens := by
  -- the parts of the node are sought in the run that the node stands for
  obtain ⟨own, inside, -, sequence⟩ := sequence.exists_covers member
  refine AreCoveredIn.mono ?_ inside
  cases node with
  | procedure span head body =>
    exact Expr.areCoveredInOption body sequence fun inner same => by
      subst same; simp [Node.pieces, Expr.bodyPieces]
  | struct | load => exact areCoveredIn_nil own
  | binding span head initializer =>
    exact Expr.areCoveredInOption initializer sequence fun inner same => by
      subst same; simp [Node.pieces, Expr.ledPieces]
  | expression inner => exact inner.areCoveredIn sequence (by simp [Node.pieces])
  | assignment span target operator value =>
    exact (target.areCoveredIn sequence (by simp [Node.pieces])).append
      (value.areCoveredIn sequence (by simp [Node.pieces]))

theorem Expr.areCoveredIn (expression : Expr) {pieces : List Piece} {tokens : List PlacedToken}
    (sequence : Sequence pieces tokens)
    (member : .expression expression.span expression.pieces ∈ pieces) :
    AreCoveredIn expression.expressions tokens := by
  obtain ⟨own, inside, covers⟩ := sequence.exists_covers member
  obtain ⟨info, form⟩ := expression
  -- the expression itself comes behind those within it
  have whole : CoveredIn (Expr.mk info form).Covers own := ⟨own, List.infix_refl own, covers⟩
  obtain ⟨-, within, bracketed, sequence⟩ := covers
  refine AreCoveredIn.mono (.append ?_ (List.forall_mem_singleton.mpr whole)) inside
  exact (form.areCoveredIn sequence).mono bracketed.isWithin

theorem Form.areCoveredIn (form : Form) {tokens : List PlacedToken}
    (sequence : Sequence form.pieces tokens) : AreCoveredIn form.expressions tokens := by
  -- the parts of a form cover tokens of their own, which lie one behind the other
  cases form with
  | field target field => exact target.areCoveredIn sequence (by simp [Form.pieces])
  | call callee arguments =>
    refine (callee.areCoveredIn sequence (by simp [Form.pieces])).append ?_
    exact Expr.areCoveredInAll arguments sequence fun inner member => by
      simp [Form.pieces, Expr.mem_scattered member]
  | binary left operator right =>
    exact (left.areCoveredIn sequence (by simp [Form.pieces])).append
      (right.areCoveredIn sequence (by simp [Form.pieces]))
  | unary operator operand => exact operand.areCoveredIn sequence (by simp [Form.pieces])
  | cast operand type => exact operand.areCoveredIn sequence (by simp [Form.pieces])
  | block nodes =>
    exact Node.areCoveredInAll nodes sequence fun inner member => by
      simp [Form.pieces, Node.mem_scattered member]
  | conditional isNegated condition consequent alternative =>
    refine (condition.areCoveredIn sequence (by simp [Form.pieces])).append <|
      (consequent.areCoveredIn sequence (by simp [Form.pieces])).append ?_
    exact Expr.areCoveredInOption alternative sequence fun inner same => by
      subst same; simp [Form.pieces, Expr.ledPieces]
  | loop isNegated condition body alternative =>
    refine (condition.areCoveredIn sequence (by simp [Form.pieces])).append <|
      (body.areCoveredIn sequence (by simp [Form.pieces])).append ?_
    exact Expr.areCoveredInOption alternative sequence fun inner same => by
      subst same; simp [Form.pieces, Expr.ledPieces]
  | delete operand => exact operand.areCoveredIn sequence (by simp [Form.pieces])
  | defer node => exact node.areCoveredIn sequence (by simp [Form.pieces])
  | bool | integer | real | text | character | reference | new | uninitialized =>
    exact areCoveredIn_nil tokens

theorem Expr.areCoveredInOption (expression : Option Expr) {pieces : List Piece}
    {tokens : List PlacedToken} (sequence : Sequence pieces tokens)
    (member : ∀ inner, expression = some inner → .expression inner.span inner.pieces ∈ pieces) :
    AreCoveredIn (Expr.expressionsOption expression) tokens := by
  cases expression with
  | none => exact areCoveredIn_nil tokens
  | some inner => exact inner.areCoveredIn sequence (member inner rfl)

theorem Expr.areCoveredInAll (expressions : List Expr) {pieces : List Piece}
    {tokens : List PlacedToken} (sequence : Sequence pieces tokens)
    (member : ∀ inner ∈ expressions, .expression inner.span inner.pieces ∈ pieces) :
    AreCoveredIn (Expr.expressionsAll expressions) tokens := by
  cases expressions with
  | nil => exact areCoveredIn_nil tokens
  | cons first rest =>
    exact (first.areCoveredIn sequence (member first List.mem_cons_self)).append <|
      Expr.areCoveredInAll rest sequence fun inner known =>
        member inner (List.mem_cons_of_mem first known)

theorem Node.areCoveredInAll (nodes : List Node) {pieces : List Piece}
    {tokens : List PlacedToken} (sequence : Sequence pieces tokens)
    (member : ∀ inner ∈ nodes, .node inner.span inner.pieces ∈ pieces) :
    AreCoveredIn (Node.expressionsAll nodes) tokens := by
  cases nodes with
  | nil => exact areCoveredIn_nil tokens
  | cons first rest =>
    exact (first.areCoveredIn sequence (member first List.mem_cons_self)).append <|
      Node.areCoveredInAll rest sequence fun inner known =>
        member inner (List.mem_cons_of_mem first known)

end

/-- The nodes that are parts of an expression of the form. -/
def Form.nodes : Form → List Node
  | .block nodes => nodes
  | .defer node => [node]
  | _ => []

/-- All nodes in some nodes. -/
def Node.nodesAll (nodes : List Node) : List Node :=
  nodes ++ (Node.expressionsAll nodes).flatMap fun inner => inner.form.nodes

theorem Expr.Covers.nodes {expression : Expr} {tokens : List PlacedToken}
    (covers : expression.Covers tokens) :
    ∀ node ∈ expression.form.nodes, CoveredIn node.Covers tokens := by
  obtain ⟨info, form⟩ := expression
  obtain ⟨-, inside, bracketed, sequence⟩ := covers
  intro node member
  refine CoveredIn.mono ?_ bracketed.isWithin
  cases form with
  | block nodes =>
    have known : node ∈ nodes := member
    have isPiece : .node node.span node.pieces ∈ (Form.block nodes).pieces := by
      simp [Form.pieces, Node.mem_scattered known]
    exact Sequence.exists_covers sequence isPiece
  | defer node =>
    obtain rfl := List.mem_singleton.mp member
    have isPiece : .node node.span node.pieces ∈ (Form.defer node).pieces := by simp [Form.pieces]
    exact Sequence.exists_covers sequence isPiece
  | _ => cases member

end Cadence
