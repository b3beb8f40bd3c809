import Cadence.Proofs.Parse.Alike

/-!
# Where a file lies makes no difference

A file that lies elsewhere in a source map has the same tokens and trees there, with all spans moved.
-/
namespace Cadence

open Source (File FileName Span)

namespace Source.Span

theorem shift_through (left right : Span) (amount : Nat) :
    (left.shift amount).through (right.shift amount) = (left.through right).shift amount := rfl

theorem shift_add (span : Span) (first second : Nat) :
    span.shift (first + second) = (span.shift first).shift second := by
  simp [shift, Nat.add_assoc]

end Source.Span

def Token.shift (amount : Nat) (token : Token) : Token := { token with span := token.span.shift amount }

/-- A text moved forward. -/
def Correspondence.shift (amount : Nat) : Correspondence where
  tokens left right := right = left.shift amount
  spans left right := right = left.shift amount
  lexeme_eq same := by rw [same]; rfl
  span same := by rw [same]; rfl
  through first second := by rw [first, second, Span.shift_through]

namespace Lexed

/-- What reading yields, moved forward. -/
def shift (amount : Nat) (lexed : Lexed) : Lexed where
  tokens := lexed.tokens.map (Token.shift amount)
  errors := lexed.errors.map fun error => { error with span := error.span.shift amount }
  tainted := lexed.tainted

theorem shift_push (start amount : Nat) (taken : List Char) (reading : Reading) (lexed : Lexed) :
    (lexed.push start taken reading).shift amount =
      (lexed.shift amount).push (start + amount) taken reading := by
  simp only [push, shift, List.map_append, List.map_map, Function.comp_def, ← Span.shift_add,
    Lexed.mk.injEq, and_true]
  cases reading.lexeme? with
  | none => rfl
  | some lexeme =>
    simp only [List.map_cons, Token.shift, Span.shift, List.cons.injEq, Token.mk.injEq, Span.mk.injEq,
      true_and, and_true]
    omega

/-- A text that starts elsewhere is read as the same tokens. -/
theorem ofText_shift (start amount : Nat) (text : List Char) :
    ofText (start + amount) text = (ofText start text).shift amount := by
  induction start, text using ofText.induct with
  | case1 start => simp [ofText, shift, Token.shift, Span.shift, Span.emptyAt]
  | case2 start first rest reading taken ih =>
    rw [ofText, ofText, shift_push, ← ih, Nat.add_right_comm]

end Lexed

/-- The file, moved forward. -/
def Source.File.shift (amount : Nat) (file : File) : File := { file with start := file.start + amount }

section Shift

variable (file : File) (amount : Nat)

theorem Lexed.ofFile_shift : ofFile (file.shift amount) = (ofFile file).shift amount :=
  ofText_shift file.start amount file.content

theorem Source.File.toLocal?_shift (span : Span) :
    (file.shift amount).toLocal? (span.shift amount) = file.toLocal? span := by
  simp only [toLocal?, shift, Span.shift, Span.unshift, Span.IsOrdered, Nat.add_sub_add_right]
  exact if_congr (and_congr Nat.add_le_add_iff_right Nat.add_le_add_iff_right) rfl rfl

theorem gap?_shift (before after : Token) :
    gap? (file.shift amount) (before.shift amount) (after.shift amount) = gap? file before after := by
  have moved := file.toLocal?_shift amount ⟨before.span.stop, after.span.start⟩
  simp only [gap?, Token.shift]
  exact congrArg (· >>= file.slice?) moved

theorem placeAfter_shift (before : Token) (tokens : List Token) :
    List.Forall₂ (PlacedToken.Alike (.shift amount)) (placeAfter file before tokens)
      (placeAfter (file.shift amount) (before.shift amount) (tokens.map (Token.shift amount))) := by
  induction tokens generalizing before with
  | nil => exact .nil
  | cons token rest ih =>
    refine .cons ⟨rfl, ?_⟩ (ih token)
    rw [gap?_shift]

theorem placeTokens_shift (tokens : List Token) :
    List.Forall₂ (PlacedToken.Alike (.shift amount)) (placeTokens file tokens)
      (placeTokens (file.shift amount) (tokens.map (Token.shift amount))) := by
  cases tokens with
  | nil => exact .nil
  | cons token rest => exact .cons ⟨rfl, rfl⟩ (placeAfter_shift file amount token rest)

theorem ending_shift : File.ending (file.shift amount) = (File.ending file).shift amount := by
  simp [File.ending, Token.shift, Source.File.shift, Source.File.span, Span.emptyAt, Span.shift,
    Nat.add_right_comm]

theorem endTokens_shift (tokens : List Token) :
    endTokens (file.shift amount) (tokens.map (Token.shift amount)) =
      (endTokens file tokens).map (Token.shift amount) := by
  unfold endTokens
  rw [List.getLast?_map, ending_shift]
  cases tokens.getLast? with
  | none => rfl
  | some token =>
    simp only [Option.map_some]
    have same : (token.shift amount).lexeme = token.lexeme := rfl
    rw [same]
    split
    · rfl
    · rw [List.map_append, List.map_singleton]

/-- A file that lies elsewhere has the same trees there. -/
theorem Parsed.alike_shift : (ofFile file).Alike (.shift amount) (ofFile (file.shift amount)) := by
  unfold ofFile
  rw [Lexed.ofFile_shift]
  refine alike_ofTokens ?_
  rw [Lexed.shift, endTokens_shift]
  exact placeTokens_shift file amount _

end Shift

/-- The paths that are demanded in some nodes, apart from where they are written. -/
def Node.loadedPaths (nodes : List Node) : List String := (nodes.filterMap Node.load?).map Spanned.value

theorem Node.Alike.loadedPaths {c : Correspondence} {left right : List Node}
    (alike : List.Forall₂ (Node.Alike c) left right) : Node.loadedPaths left = Node.loadedPaths right := by
  induction alike with
  | nil => rfl
  | cons first _ ih =>
    cases first with
    | load _ path =>
      simp only [Node.loadedPaths, List.filterMap_cons, Node.load?, List.map_cons] at ih ⊢
      rw [ih, path.1]
    | procedure | struct | binding | expression | assignment =>
      simpa only [Node.loadedPaths, List.filterMap_cons, Node.load?] using ih

/-- The same file at two places is tainted at both or at none, and it demands the same paths. -/
theorem Parsed.same_at (name : FileName) (content : List Char) (start other : Nat) :
    (Lexed.ofFile ⟨name, content, start⟩).tainted = (Lexed.ofFile ⟨name, content, other⟩).tainted ∧
      Node.loadedPaths (ofFile ⟨name, content, start⟩).nodes =
        Node.loadedPaths (ofFile ⟨name, content, other⟩).nodes := by
  -- both are compared with the file at the very front
  have moved (amount : Nat) : (⟨name, content, amount⟩ : File) = Source.File.shift amount ⟨name, content, 0⟩ := by
    rw [Source.File.shift, Nat.zero_add]
  have tainted (amount : Nat) : (Lexed.ofFile ⟨name, content, amount⟩).tainted =
      (Lexed.ofFile ⟨name, content, 0⟩).tainted := by
    rw [moved, Lexed.ofFile_shift, Lexed.shift]
  have paths (amount : Nat) : Node.loadedPaths (ofFile ⟨name, content, amount⟩).nodes =
      Node.loadedPaths (ofFile ⟨name, content, 0⟩).nodes := by
    rw [moved]
    exact (Node.Alike.loadedPaths (alike_shift ⟨name, content, 0⟩ amount).nodes).symm
  exact ⟨(tainted start).trans (tainted other).symm, (paths start).trans (paths other).symm⟩

end Cadence
