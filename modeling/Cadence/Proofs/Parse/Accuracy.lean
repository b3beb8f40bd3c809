import Cadence.Proofs.Parse.Language
import Cadence.Proofs.Parse.Spans
import Cadence.Proofs.Token.Layout

/-!
# The spans of a file are exact and nested

The tokens of a file follow each other, and the nodes of the file stand for all of them. So whatever
is put together from the spans of two parts starts in front of where it ends.
-/
namespace Cadence

open Source (File Span)

namespace Parser

variable {α β : Type}

/-- The run of a parser succeeds, and something holds of the result and of the state behind it. -/
def Succeeds (parser : Parser α) (before : ParseState) (post : α → ParseState → Prop) : Prop :=
  ∃ result, (parser.run before).1 = some result ∧ post result (parser.run before).2

namespace Succeeds

variable {before : ParseState} {post : β → ParseState → Prop}

theorem pure {result : β} (known : post result before) :
    (pure result : Parser β).Succeeds before post := ⟨result, rfl, known⟩

theorem bind {parser : Parser α} {next : α → Parser β} {middle : α → ParseState → Prop}
    (first : parser.Succeeds before middle)
    (second : ∀ result after, middle result after → (next result).Succeeds after post) :
    (parser >>= next).Succeeds before post := by
  obtain ⟨result, same, holds⟩ := first
  have run : parser.run before = (some result, (parser.run before).2) := Prod.ext same rfl
  rw [Succeeds, run_bind, run]
  exact second result _ holds

theorem look {result : ParseState → α} {next : α → Parser β}
    (known : (next (result before)).Succeeds before post) :
    (Parser.look result >>= next).Succeeds before post := known

theorem token {next : Token → Parser β} (known : (next before.current.token).Succeeds before post) :
    (token >>= next).Succeeds before post := known

theorem advance : advance.Succeeds before fun _ _ => True := ⟨(), rfl, trivial⟩

theorem attempt (parser : Parser α) : (attempt parser).Succeeds before fun _ _ => True :=
  ⟨(parser.run before).1, rfl, trivial⟩

theorem recovering (parser : Parser Node) : (recovering parser).Succeeds before fun _ _ => True := by
  refine look (bind (attempt parser) fun found after _ => ?_)
  cases found with
  | some parsed => exact pure trivial
  | none =>
    refine look ?_
    split
    next => exact bind advance fun _ _ _ => pure trivial
    next => exact pure trivial

/-- A loop whose steps do not fail comes to its end unless it is given up. -/
theorem repeatWithin {step : α → Parser (Step α β)}
    (steps : ∀ state before, (step state).Succeeds before fun outcome after =>
      ∀ result, outcome = .done result → post result after)
    (budget : Nat) (state : α) (before : ParseState) :
    ((repeatWithin step budget state).run before).2.exhausted = true ∨
      (Parser.repeatWithin step budget state).Succeeds before post := by
  induction budget generalizing state before with
  | zero => exact .inl rfl
  | succ budget ih =>
    obtain ⟨outcome, same, ends⟩ := steps state before
    have run : (step state).run before = (some outcome, ((step state).run before).2) :=
      Prod.ext same rfl
    rw [Parser.repeatWithin, Succeeds, run_bind, run]
    cases outcome with
    | more next => exact ih next _
    | done result => exact .inr ⟨result, rfl, ends result rfl⟩

theorem loop {step : α → Parser (Step α β)}
    (steps : ∀ state before, (step state).Succeeds before fun outcome after =>
      ∀ result, outcome = .done result → post result after)
    (state : α) (lasts : ((loop step state).run before).2.exhausted = false) :
    (Parser.loop step state).Succeeds before post :=
  (repeatWithin steps (before.ahead.length + 1) state before).resolve_left fun exhausted =>
    Bool.false_ne_true (lasts.symm.trans exhausted)

end Succeeds

/-- The nodes of a file end with the input only. -/
theorem nodesStep_succeeds (nodes : List Node) (before : ParseState) :
    (nodesStep nodes).Succeeds before fun outcome after =>
      ∀ result, outcome = .done result → after.current.token.lexeme = .endOfInput := by
  refine .token ?_
  split
  next same => exact .pure fun _ _ => same
  next => exact .bind .advance fun _ _ _ => .pure fun _ more => by cases more
  next => exact .bind (.recovering node) fun _ _ _ => .pure fun _ more => by cases more

/-- The nodes of a file come to the end of its tokens. -/
theorem exists_nodes {finish : PlacedToken} {input : List PlacedToken}
    (plain : ∀ placed ∈ input, placed.token.lexeme ≠ .endOfInput)
    (lasts : (nodes.run (.fresh finish input)).2.exhausted = false) :
    ∃ found, (nodes.run (.fresh finish input)).1 = some found ∧
      (nodes.run (.fresh finish input)).2.ahead = [] := by
  obtain ⟨found, same, isEnd⟩ := Succeeds.loop nodesStep_succeeds [] lasts
  refine ⟨found, same, ?_⟩
  have reaches := nodes.reaches (.fresh finish input)
  change (nodes.run (.fresh finish input)).2.current.token.lexeme = .endOfInput at isEnd
  cases rest : (nodes.run (.fresh finish input)).2.ahead with
  | nil => rfl
  | cons first tail =>
    -- what is ahead is a token of the input, and no end of it
    rw [ParseState.current, rest] at isEnd
    exact absurd isEnd (plain first (reaches.ahead_suffix.subset (rest ▸ List.mem_cons_self)))

/-- Whatever the parser yields somewhere in the tokens has a span that does not end before it
starts. -/
def SpansForward (parser : Parser α) (spanOf : α → Span) (tokens : List PlacedToken) : Prop :=
  ∀ before : ParseState, before.IsEnded → before.ahead <:+ tokens →
    ∀ found ∈ (parser.run before).1, (spanOf found).IsOrdered

theorem Spells.spansForward {parser : Parser α} {post : List PlacedToken → α → Prop}
    {spanOf : α → Span} {tokens : List PlacedToken} (spells : parser.Spells post)
    (exactly : ∀ own found, post own found → IsSpanOf (spanOf found) own)
    (ordered : AreOrdered tokens) : parser.SpansForward spanOf tokens := by
  intro before ended suffix found same
  have ahead := ordered.of_sublist suffix.sublist
  obtain ⟨own, split, holds⟩ := (spells before ended ahead).2 found same
  rw [split] at ahead
  exact (ahead.of_sublist (List.sublist_append_left own _)).isOrdered (exactly own found holds)

end Parser

section Files

variable (file : File)

/-- The tokens of a file are not empty, follow each other and lie in the file. -/
theorem Parsed.areOrdered_inputOf : AreOrdered (inputOf file) ∧
    ∀ placed ∈ inputOf file, file.span.start ≤ placed.token.span.start ∧
      placed.token.span.stop ≤ file.span.stop := by
  have laidOut := Lexed.laidOut_ofText file.start file.content
  obtain ⟨front, same, facts⟩ := laidOut.exists_front
  -- the input of the parser leaves out the end, which is the last token
  have tokens : (inputOf file).map PlacedToken.token = front := by
    have same : (Lexed.ofFile file).tokens = _ := same
    rw [inputOf, List.map_dropLast, map_token_placeTokens, same, List.dropLast_concat]
  have known (placed) (member : placed ∈ inputOf file) :=
    facts placed.token (tokens ▸ List.mem_map_of_mem member)
  refine ⟨⟨fun placed member => Nat.le_of_lt (known placed member).2.1, ?_⟩,
    fun placed member => ⟨(known placed member).2.2.bounds.1, (known placed member).2.2.bounds.2.2⟩⟩
  have pairs := laidOut.pairwise.2
  rw [same, ← tokens] at pairs
  exact List.pairwise_map.mp (List.pairwise_append.mp pairs).1

/-- The nodes of a file stand for all of its tokens, and no report goes back. -/
theorem Parsed.coverAll_nodes : Node.CoverAll (ofFile file).nodes (inputOf file) ∧
    ∀ error ∈ (ofFile file).errors, error.HasOrderedSpan := by
  obtain ⟨finish, started, ended, plain⟩ := exists_start file
  have lasts := exhausted_eq_false file (Lexed.ofFile file).tokens
  simp only [ofFile, ofTokens, started] at lasts ⊢
  obtain ⟨errors, results⟩ := Parser.spells_nodes (.fresh finish (inputOf file)) ended
    (areOrdered_inputOf file).1
  obtain ⟨found, same, atEnd⟩ := Parser.exists_nodes plain lasts
  obtain ⟨own, split, cover⟩ := results found same
  obtain rfl : inputOf file = own := by
    rw [atEnd, List.append_nil] at split
    exact split
  rw [same]
  exact ⟨cover, fun error member => (errors error member).resolve_left List.not_mem_nil⟩

/-- The expression stands for a run of the tokens, and its parts follow each other within it. -/
def Expr.IsNestedIn (expression : Expr) (tokens : List PlacedToken) : Prop :=
  CoveredIn expression.Covers tokens ∧
    AreWithin expression.span.start expression.span.stop (partSpans expression.pieces)

/-- The node stands for a run of the tokens, and its parts follow each other within it. -/
def Node.IsNestedIn (node : Node) (tokens : List PlacedToken) : Prop :=
  CoveredIn node.Covers tokens ∧ AreWithin node.span.start node.span.stop (partSpans node.pieces)

section Tokens

variable {tokens : List PlacedToken} (ordered : AreOrdered tokens)
include ordered

theorem Expr.isNestedIn {expression : Expr} (covered : CoveredIn expression.Covers tokens) :
    expression.IsNestedIn tokens := by
  refine ⟨covered, ?_⟩
  obtain ⟨own, inside, covers⟩ := covered
  exact covers.areWithin (ordered.of_sublist inside.sublist)

theorem Node.isNestedIn {node : Node} (covered : CoveredIn node.Covers tokens) :
    node.IsNestedIn tokens := by
  refine ⟨covered, ?_⟩
  obtain ⟨own, inside, covers⟩ := covered
  exact covers.areWithin (ordered.of_sublist inside.sublist)

theorem Node.CoverAll.expressions {nodes : List Node} (cover : Node.CoverAll nodes tokens) :
    ∀ inner ∈ Node.expressionsAll nodes, inner.IsNestedIn tokens := fun inner member =>
  Expr.isNestedIn ordered
    (Node.areCoveredInAll nodes cover (fun _ => Node.mem_scattered) inner member)

/-- A node in some nodes is one of them, or an expression in them has it as a part. -/
theorem Node.CoverAll.nodes {nodes : List Node} (cover : Node.CoverAll nodes tokens) :
    ∀ node ∈ Node.nodesAll nodes, node.IsNestedIn tokens := by
  refine List.forall_mem_append.mpr ⟨fun node member => ?_, fun node member => ?_⟩
  · exact Node.isNestedIn ordered (Sequence.exists_covers cover (Node.mem_scattered member))
  · obtain ⟨inner, known, isPart⟩ := List.mem_flatMap.mp member
    obtain ⟨own, inside, covers⟩ := (cover.expressions ordered inner known).1
    exact Node.isNestedIn ordered ((covers.nodes node isPart).mono inside)

theorem Node.CoverAll.areWithin {nodes : List Node} {start stop : Nat}
    (cover : Node.CoverAll nodes tokens) (notEmpty : start ≤ stop)
    (bounds : ∀ placed ∈ tokens, start ≤ placed.token.span.start ∧ placed.token.span.stop ≤ stop) :
    AreWithin start stop (nodes.map Node.span) := by
  have exactly : AreExact (scattered IsSkipped (Node.groups nodes)) :=
    areExact_scattered (by simp [Node.groups_eq])
  have spans : partSpans (scattered IsSkipped (Node.groups nodes)) = nodes.map Node.span := by
    rw [partSpans_scattered, Node.groups_eq, List.flatMap_map]
    exact List.map_eq_flatMap.symm
  exact spans ▸ Sequence.areWithin exactly cover ordered notEmpty bounds

theorem AreOrdered.isOrdered_through {left right : Span} {front between behind : List PlacedToken}
    (inside : front ++ between ++ behind <:+: tokens) (first : IsSpanOf left front)
    (second : IsSpanOf right behind) : (left.through right).IsOrdered :=
  (ordered.of_sublist inside.sublist).isOrdered
    (isSpanOf_through (first.startsAt.append between) second.endsAt)

end Tokens

/-- The nodes of a file stand for its tokens: each node and each expression in them, at any depth,
stands for a run of the tokens, its span goes from the start of the first one to the end of the last
one, brackets around it included, and its parts and types follow each other within it, as the nodes
do within the file. So to put the spans of two parts together never leads to a span that ends before
it starts, neither in the trees and the reports nor in what is given up. -/
theorem spans_are_exact_and_nested :
    Node.CoverAll (Parsed.ofFile file).nodes (Parsed.inputOf file) ∧
    AreWithin file.span.start file.span.stop ((Parsed.ofFile file).nodes.map Node.span) ∧
    (∀ inner ∈ Node.expressionsAll (Parsed.ofFile file).nodes,
      inner.IsNestedIn (Parsed.inputOf file)) ∧
    (∀ node ∈ Node.nodesAll (Parsed.ofFile file).nodes,
      node.IsNestedIn (Parsed.inputOf file)) ∧
    (∀ left right front between behind, front ++ between ++ behind <:+: Parsed.inputOf file →
      IsSpanOf left front → IsSpanOf right behind → (left.through right).IsOrdered) ∧
    (∀ error ∈ (Parsed.ofFile file).errors, error.HasOrderedSpan) ∧
    (∀ depth, (Parser.innerWithin depth).expression.SpansForward Expr.span (Parsed.inputOf file) ∧
      (Parser.innerWithin depth).operand.SpansForward Expr.span (Parsed.inputOf file) ∧
      (Parser.innerWithin depth).node.SpansForward Node.span (Parsed.inputOf file)) ∧
    Parser.type.SpansForward Spanned.span (Parsed.inputOf file) ∧
    Parser.signature.SpansForward Signature.span (Parsed.inputOf file) := by
  obtain ⟨ordered, bounds⟩ := Parsed.areOrdered_inputOf file
  obtain ⟨cover, reports⟩ := Parsed.coverAll_nodes file
  refine ⟨cover, cover.areWithin ordered (Nat.le_add_right _ _) bounds,
    cover.expressions ordered, cover.nodes ordered,
    fun _ _ _ _ _ => ordered.isOrdered_through, reports, fun depth => ?_, ?_, ?_⟩
  · have inner := Parser.isSpelled_innerWithin depth
    exact ⟨inner.expression.spansForward (fun _ _ covers => covers.1) ordered,
      inner.operand.spansForward (fun _ _ covers => covers.1) ordered,
      inner.node.spansForward (fun _ _ covers => covers.1) ordered⟩
  · exact Parser.spells_type.spansForward (fun _ _ covers => covers.isSpanOf) ordered
  · exact Parser.spells_signature.spansForward (fun _ _ covers => covers.1) ordered

end Files

end Cadence
