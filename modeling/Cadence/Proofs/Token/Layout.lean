import Cadence.Proofs.Token.Honesty

/-!
# Where the tokens of a file lie

The tokens follow each other through the text, each with the text under it as its image. What is
left between them, if nothing is wrong with it, is white space and comments. Reading takes the text
apart piece by piece, so that a gap grows by one piece whenever a reading yields no token.
-/
namespace Cadence

open Source (File Span byteSize byteSize_append)
open Text (isBlank)

/-- White space and complete comments. The end of the input may stand for the line break behind a
line comment. -/
inductive IsSpacing (atEnd : Prop) : List Char → Prop where
  | nil : IsSpacing atEnd []
  | blank {character : Char} {rest : List Char} (isBlank : Text.isBlank character = true)
      (spacing : IsSpacing atEnd rest) : IsSpacing atEnd (character :: rest)
  | line {body rest : List Char} (inLine : '\n' ∉ body) (spacing : IsSpacing atEnd rest) :
      IsSpacing atEnd ('/' :: '#' :: body ++ '\n' :: rest)
  | lastLine {body : List Char} (isEnd : atEnd) (inLine : '\n' ∉ body) :
      IsSpacing atEnd ('/' :: '#' :: body)
  | block {body rest : List Char} (isOpen : ¬ ['*', '/'] <:+: body)
      (spacing : IsSpacing atEnd rest) :
      IsSpacing atEnd ('/' :: '*' :: body ++ '*' :: '/' :: rest)

theorem IsSpacing.mono {atEnd other : Prop} {text : List Char} (implied : atEnd → other)
    (spacing : IsSpacing atEnd text) : IsSpacing other text := by
  induction spacing with
  | nil => exact .nil
  | blank isBlank _ ih => exact .blank isBlank ih
  | line inLine _ ih => exact .line inLine ih
  | lastLine isEnd inLine => exact .lastLine (implied isEnd) inLine
  | block first _ ih => exact .block first ih

namespace Reading

/-- The reading takes characters that make no token, and finds nothing wrong with them. -/
def IsSkip (reading : Reading) : Prop := reading.lexeme? = none ∧ reading.errors = []

theorem not_isSkip_token (extra : Nat) (lexeme : Lexeme) : ¬ (token extra lexeme).IsSkip := by
  simp [IsSkip, token]

theorem not_isSkip_mark (extra : Nat) (mark : Punctuation) : ¬ (Reading.mark extra mark).IsSkip :=
  not_isSkip_token extra _

theorem not_isSkip_fault (text : List Char) (extra : Nat) (found : LexFault) :
    ¬ (fault text extra found).IsSkip := by simp [IsSkip, fault]

theorem not_isSkip_ite {condition : Prop} [Decidable condition] {left right : Reading}
    (first : ¬ left.IsSkip) (second : ¬ right.IsSkip) :
    ¬ (if condition then left else right).IsSkip := by
  split
  · exact first
  · exact second

end Reading

open Reading (not_isSkip_ite not_isSkip_token not_isSkip_mark not_isSkip_fault)

theorem not_isSkip_readDots (text : List Char) : ¬ (readDots text).IsSkip := by
  unfold readDots
  split <;> exact not_isSkip_mark _ _

theorem not_isSkip_readSign (text : List Char) : ¬ (readSign text).IsSkip := by
  unfold readSign
  dsimp only
  split
  · exact not_isSkip_token _ _
  · exact not_isSkip_fault _ _ _

theorem NumberLiteral.not_isSkip_read (text : List Char) : ¬ (read text).IsSkip := by
  simp [Reading.IsSkip, read]

theorem LiteralBody.not_isSkip_reading (text : List Char) (kind : LiteralKind)
    (body : LiteralBody) : ¬ (body.reading text kind).IsSkip := by
  unfold reading
  split
  · exact not_isSkip_token _ _
  · exact not_isSkip_fault _ _ _
  · exact not_isSkip_fault _ _ _

theorem not_isSkip_closeCharacter (text : List Char) (extra : Nat) (character : Char) :
    ¬ (closeCharacter text extra character).IsSkip := by
  unfold closeCharacter
  split
  · exact not_isSkip_fault _ _ _
  · exact not_isSkip_ite (not_isSkip_token _ _) (not_isSkip_fault _ _ _)

theorem not_isSkip_readCharacter (text : List Char) : ¬ (readCharacter text).IsSkip := by
  unfold readCharacter
  split
  · exact not_isSkip_fault _ _ _
  · refine not_isSkip_ite ?_ <| not_isSkip_ite (not_isSkip_fault _ _ _) <|
      not_isSkip_ite (not_isSkip_fault _ _ _) (not_isSkip_closeCharacter _ _ _)
    split
    · exact not_isSkip_fault _ _ _
    · exact not_isSkip_closeCharacter _ _ _

/-- What the reading takes of the text is spacing if it skips it, in front of the spacing that the
rest of the text starts with. -/
def Reading.Spaces (text : List Char) (reading : Reading) : Prop :=
  reading.IsSkip → ∀ ⦃atEnd : Prop⦄ ⦃gap : List Char⦄,
    (text.drop (reading.extra + 1) = [] → atEnd ∧ gap = []) →
    IsSpacing atEnd gap → IsSpacing atEnd (text.take (reading.extra + 1) ++ gap)

theorem Reading.spaces_of_not_isSkip {text : List Char} {reading : Reading}
    (present : ¬ reading.IsSkip) : reading.Spaces text :=
  fun skips => absurd skips present

theorem Reading.spaces_of_append {taken behind : List Char} {reading : Reading}
    (size : taken.length = reading.extra + 1)
    (fits : ∀ ⦃atEnd : Prop⦄ ⦃gap : List Char⦄, (behind = [] → atEnd ∧ gap = []) →
      IsSpacing atEnd gap → IsSpacing atEnd (taken ++ gap)) :
    reading.Spaces (taken ++ behind) := by
  intro _ atEnd gap isEnd spacing
  rw [← size, List.drop_left] at isEnd
  rw [← size, List.take_left]
  exact fits isEnd spacing

theorem Reading.spaces_ite {condition : Prop} [Decidable condition] {text : List Char}
    {left right : Reading} (first : condition → left.Spaces text)
    (second : ¬ condition → right.Spaces text) :
    (if condition then left else right).Spaces text := by
  split
  next holds => exact first holds
  next fails => exact second fails

theorem secondIs_eq_true_iff {test : Char → Bool} {first : Char} {rest : List Char} :
    secondIs test (first :: rest) = true ↔
      ∃ second behind, rest = second :: behind ∧ test second = true := by
  cases rest <;> simp [secondIs]

/-- A prefix of some kind ends where something of another kind follows. -/
theorem takeWhile_append_stop {α : Type} {test : α → Bool} {front behind : List α}
    (inside : ∀ item ∈ front, test item = true) (stops : ∀ item ∈ behind.head?, test item = false) :
    (front ++ behind).takeWhile test = front := by
  rw [List.takeWhile_append_of_pos inside]
  cases behind with
  | nil => simp
  | cons next behind => simp [stops next rfl]

theorem readLineComment_of_break {line behind : List Char} (inLine : '\n' ∉ line) :
    readLineComment (line ++ '\n' :: behind) = .skip line.length := by
  have ends : (line ++ '\n' :: behind).takeWhile (· ≠ '\n') = line :=
    takeWhile_append_stop (by simpa using fun _ member => ne_of_mem_of_not_mem member inLine)
      (by simp)
  rw [readLineComment, ends, if_pos (by simp)]

theorem readLineComment_of_end {line : List Char} (inLine : '\n' ∉ line) :
    readLineComment line = .skip (line.length - 1) := by
  have ends : line.takeWhile (· ≠ '\n') = line := by
    have : (line ++ []).takeWhile (· ≠ '\n') = line := takeWhile_append_stop
      (by simpa using fun _ member => ne_of_mem_of_not_mem member inLine) (by simp)
    rwa [List.append_nil] at this
  rw [readLineComment, ends, if_neg (by simp)]

/-- A line comment ends behind the first line break, or with the input. -/
theorem spaces_readLineComment (rest : List Char) :
    (readLineComment ('/' :: '#' :: rest)).Spaces ('/' :: '#' :: rest) := by
  by_cases breaks : '\n' ∈ rest
  · obtain ⟨body, behind, rfl, inLine⟩ := List.eq_append_cons_of_mem breaks
    have taken : readLineComment ('/' :: '#' :: body ++ '\n' :: behind) = _ :=
      readLineComment_of_break (by simpa using inLine)
    have parts : '/' :: '#' :: (body ++ '\n' :: behind) =
        ('/' :: '#' :: body ++ ['\n']) ++ behind := by simp
    rw [← List.cons_append, ← List.cons_append, taken, List.cons_append, List.cons_append,
      parts]
    refine Reading.spaces_of_append (by simp [Reading.skip]) fun atEnd gap _ spacing => ?_
    simpa using IsSpacing.line inLine spacing
  · rw [readLineComment_of_end (by simpa using breaks), ← List.append_nil ('/' :: '#' :: rest)]
    refine Reading.spaces_of_append (by simp [Reading.skip]) fun atEnd gap isEnd spacing => ?_
    obtain ⟨last, rfl⟩ := isEnd rfl
    simpa using IsSpacing.lastLine last breaks

/-- A block comment ends with the first asterisk that a slash follows. -/
theorem exists_of_blockComment {text : List Char} {size : Nat}
    (closed : blockComment text = (size, true)) :
    ∃ body behind, text = body ++ '*' :: '/' :: behind ∧ size = body.length + 2 ∧
      ¬ ['*', '/'] <:+: body := by
  fun_induction blockComment text generalizing size with
  | case1 => simp at closed
  | case2 behind =>
    obtain rfl : 2 = size := congrArg Prod.fst closed
    exact ⟨[], behind, rfl, rfl, by simp⟩
  | case3 character rest other size' closed' found ih =>
    obtain ⟨rfl, rfl⟩ := Prod.mk.inj closed
    obtain ⟨body, behind, rfl, rfl, first⟩ := ih found
    refine ⟨character :: body, behind, rfl, rfl, fun inside => ?_⟩
    -- a delimiter that starts with this character would have ended the comment
    rcases List.infix_cons_iff.mp inside with starts | later
    · obtain ⟨rfl, next⟩ := List.cons_prefix_cons.mp starts
      obtain ⟨after, rfl⟩ := next
      exact other _ rfl rfl
    · exact first later

theorem spaces_readBlockComment (rest : List Char) :
    (readBlockComment ('/' :: '*' :: rest)).Spaces ('/' :: '*' :: rest) := by
  unfold readBlockComment
  split
  next size closed found =>
    refine Reading.spaces_ite (fun ends => ?_) fun _ =>
      Reading.spaces_of_not_isSkip (not_isSkip_fault _ _ _)
    subst ends
    obtain ⟨body, behind, split, rfl, first⟩ := exists_of_blockComment found
    rw [List.drop_succ_cons, List.drop_succ_cons, List.drop_zero] at split
    rw [split, show '/' :: '*' :: (body ++ '*' :: '/' :: behind) =
      ('/' :: '*' :: body ++ ['*', '/']) ++ behind by simp]
    refine Reading.spaces_of_append (by simp [Reading.skip]) fun atEnd gap _ spacing => ?_
    simpa using IsSpacing.block first spacing

/-- Only white space and comments are skipped. -/
theorem Reading.spaces_ofText (first : Char) (rest : List Char) :
    (ofText first rest).Spaces (first :: rest) := by
  unfold ofText
  refine spaces_ite (fun blank => ?_) fun _ => spaces_ite (fun opens => ?_) fun _ =>
    spaces_ite (fun opens => ?_) fun _ => spaces_of_not_isSkip ?_
  · exact @spaces_of_append [first] rest _ rfl fun _ _ _ => .blank blank
  · obtain ⟨rfl, next⟩ := opens
    obtain ⟨second, behind, rfl, isHash⟩ := secondIs_eq_true_iff.mp next
    obtain rfl : second = '#' := of_decide_eq_true isHash
    exact spaces_readLineComment behind
  · obtain ⟨rfl, next⟩ := opens
    obtain ⟨second, behind, rfl, isAsterisk⟩ := secondIs_eq_true_iff.mp next
    obtain rfl : second = '*' := of_decide_eq_true isAsterisk
    exact spaces_readBlockComment behind
  · refine not_isSkip_ite (not_isSkip_readDots _) <| not_isSkip_ite (not_isSkip_mark _ _) <|
      not_isSkip_ite (NumberLiteral.not_isSkip_read _) <| not_isSkip_ite (not_isSkip_token _ _) <|
        not_isSkip_ite (not_isSkip_readSign _) <|
          not_isSkip_ite (NumberLiteral.not_isSkip_read _) ?_
    split
    · exact not_isSkip_mark _ _
    · exact not_isSkip_ite (LiteralBody.not_isSkip_reading _ _ _) <|
        not_isSkip_ite (LiteralBody.not_isSkip_reading _ _ _) <|
          not_isSkip_ite (not_isSkip_readCharacter _) <| not_isSkip_ite (not_isSkip_token _ _)
            (not_isSkip_fault _ _ _)

/-- The tokens lie in the text that starts at the index `start`, and nothing of it is left over. If
the text is clean, the gaps between them are spacing. -/
inductive LaidOut (clean : Prop) : Nat → List Char → List Token → Prop where
  | last {start : Nat} {gap : List Char} (spacing : clean → IsSpacing True gap) :
      LaidOut clean start gap [⟨.endOfInput, .emptyAt (start + byteSize gap), ""⟩]
  | token {start : Nat} {gap image behind : List Char} {lexeme : Lexeme} {tokens : List Token}
      (spacing : clean → IsSpacing False gap) (visible : image ≠ [])
      (present : lexeme ≠ .endOfInput)
      (rest : LaidOut clean (start + byteSize (gap ++ image)) behind tokens) :
      LaidOut clean start (gap ++ image ++ behind)
        (⟨lexeme, ⟨start + byteSize gap, start + byteSize (gap ++ image)⟩, String.ofList image⟩ ::
          tokens)

namespace LaidOut

variable {clean : Prop} {start : Nat} {text : List Char} {tokens : List Token}

theorem mono {other : Prop} (fewer : other → clean) (laidOut : LaidOut clean start text tokens) :
    LaidOut other start text tokens := by
  induction laidOut with
  | last spacing => exact .last fun isClean => spacing (fewer isClean)
  | token spacing visible present _ ih =>
    exact .token (fun isClean => spacing (fewer isClean)) visible present ih

/-- The first gap grows by a piece of text that makes no token. -/
theorem prepend {piece : List Char} (laidOut : LaidOut clean (start + byteSize piece) text tokens)
    (fits : clean → ∀ ⦃atEnd : Prop⦄ ⦃gap : List Char⦄, (text = [] → atEnd ∧ gap = []) →
      IsSpacing atEnd gap → IsSpacing atEnd (piece ++ gap)) :
    LaidOut clean start (piece ++ text) tokens := by
  cases laidOut with
  | last spacing =>
    rw [Nat.add_assoc, ← byteSize_append]
    exact .last fun isClean => fits isClean (fun none => ⟨trivial, none⟩) (spacing isClean)
  | @token _ gap image behind lexeme tokens spacing visible present rest =>
    rw [Nat.add_assoc, ← byteSize_append, ← List.append_assoc, ← List.append_assoc, Nat.add_assoc,
      ← byteSize_append, ← List.append_assoc]
    refine .token (fun isClean => fits isClean (fun none => ?_) (spacing isClean)) visible present
      ?_
    · simp [visible] at none
    · rwa [Nat.add_assoc, ← byteSize_append, ← List.append_assoc] at rest

end LaidOut

theorem Lexed.laidOut_ofText (start : Nat) (text : List Char) :
    LaidOut ((ofText start text).errors = []) start text (ofText start text).tokens := by
  fun_induction ofText start text with
  | case1 start => exact @LaidOut.last _ start [] fun _ => .nil
  | case2 start first rest reading taken ih =>
    -- the text is what the reading takes, and a rest that is laid out by the induction
    have cut : first :: rest = taken ++ rest.drop reading.extra :=
      congrArg (first :: ·) (List.take_append_drop ..).symm
    have present := (Reading.isHonest_ofText first rest).present
    have spaces := Reading.spaces_ofText first rest
    have laidOut : LaidOut ((push start taken reading (ofText (start + byteSize taken)
        (rest.drop reading.extra))).errors = []) _ _ _ :=
      ih.mono fun clean => (List.append_eq_nil_iff.mp clean).2
    rw [cut]
    simp only [push]
    split
    next lexeme found =>
      refine @LaidOut.token _ _ [] _ _ _ _ (fun _ => .nil) (List.cons_ne_nil _ _) ?_ laidOut
      rintro rfl
      exact present found
    next found =>
      -- without a token, the gap that the rest starts with grows
      refine laidOut.prepend fun clean => ?_
      have skips : reading.IsSkip := ⟨found, by simpa using (List.append_eq_nil_iff.mp clean).1⟩
      simpa only [Reading.Spaces, List.take_succ_cons, List.drop_succ_cons] using spaces skips

/-- The part of a text that starts at the index `start` is what lies under the span. -/
def LiesUnder (start : Nat) (text : List Char) (span : Span) (part : List Char) : Prop :=
  ∃ before behind, text = before ++ part ++ behind ∧
    span = ⟨start + byteSize before, start + byteSize (before ++ part)⟩

theorem LiesUnder.prepend {start : Nat} {piece text part : List Char} {span : Span}
    (lies : LiesUnder (start + byteSize piece) text span part) :
    LiesUnder start (piece ++ text) span part := by
  obtain ⟨before, behind, rfl, rfl⟩ := lies
  exact ⟨piece ++ before, behind, by simp, by simp [Nat.add_assoc]⟩

theorem LiesUnder.bounds {start : Nat} {text part : List Char} {span : Span}
    (lies : LiesUnder start text span part) :
    start ≤ span.start ∧ span.stop = span.start + byteSize part ∧
      span.stop ≤ start + byteSize text := by
  obtain ⟨before, behind, rfl, rfl⟩ := lies
  simp only [byteSize_append]
  omega

theorem LiesUnder.slice {file : File} {part : List Char} {span : Span}
    (lies : LiesUnder file.start file.content span part) :
    (file.toLocal? span).bind file.slice? = some part := by
  obtain ⟨before, behind, same, rfl⟩ := lies
  rw [File.toLocal?, if_pos (by simp [Span.IsOrdered]), Option.bind_some, File.slice?,
    Source.slice?_eq_some_iff]
  exact ⟨before, behind, same, by simp [Span.unshift], by simp [Span.unshift]⟩

/-- The gaps in front of the tokens, the first of which starts at `start`. -/
def gaps (start : Nat) : List Token → List Span
  | [] => []
  | token :: rest => ⟨start, token.span.start⟩ :: gaps token.span.stop rest

namespace LaidOut

variable {clean : Prop} {start : Nat} {text : List Char} {tokens : List Token}

/-- All tokens but the last one have a part of the text as their image. -/
theorem exists_front (laidOut : LaidOut clean start text tokens) :
    ∃ front : List Token, tokens = front ++ [⟨.endOfInput, .emptyAt (start + byteSize text), ""⟩] ∧
      ∀ token ∈ front, token.lexeme ≠ .endOfInput ∧ token.span.start < token.span.stop ∧
        LiesUnder start text token.span token.image.toList := by
  induction laidOut with
  | last => exact ⟨[], rfl, by simp⟩
  | @token start gap image behind lexeme tokens spacing visible present rest ih =>
    obtain ⟨front, rfl, facts⟩ := ih
    have size := Source.byteSize_pos visible
    have ends : start + byteSize (gap ++ image ++ behind) =
        start + byteSize (gap ++ image) + byteSize behind := by simp [Nat.add_assoc]
    refine ⟨_ :: front, by rw [ends]; rfl, List.forall_mem_cons.mpr ⟨⟨present, ?_, ?_⟩, ?_⟩⟩
    · change start + byteSize gap < start + byteSize (gap ++ image)
      rw [byteSize_append]
      omega
    · exact ⟨gap, behind, by simp, by simp⟩
    · intro token member
      obtain ⟨proper, nonempty, lies⟩ := facts token member
      exact ⟨proper, nonempty, lies.prepend⟩

/-- The tokens follow each other. -/
theorem pairwise (laidOut : LaidOut clean start text tokens) :
    (∀ token ∈ tokens, start ≤ token.span.start) ∧
      tokens.Pairwise fun left right => left.span.stop ≤ right.span.start := by
  induction laidOut with
  | last => simp [Span.emptyAt]
  | token spacing visible present rest ih =>
    obtain ⟨behind, follows⟩ := ih
    refine ⟨List.forall_mem_cons.mpr ⟨by simp, fun token member => ?_⟩,
      List.pairwise_cons.mpr ⟨behind, follows⟩⟩
    exact Nat.le_trans (Nat.le_add_right _ _) (behind token member)

theorem gaps_spacing (laidOut : LaidOut clean start text tokens) (isClean : clean) :
    ∀ gap ∈ gaps start tokens, ∃ part, LiesUnder start text gap part ∧
      IsSpacing (gap.stop = start + byteSize text) part := by
  induction laidOut with
  | @last start gap spacing =>
    simp only [gaps, List.mem_singleton, forall_eq]
    exact ⟨gap, ⟨[], [], by simp, by simp [Span.emptyAt]⟩, (spacing isClean).mono fun _ => rfl⟩
  | @token start gap image behind lexeme tokens spacing visible present rest ih =>
    refine List.forall_mem_cons.mpr ⟨?_, fun later member => ?_⟩
    · exact ⟨gap, ⟨[], image ++ behind, by simp, by simp⟩, (spacing isClean).mono False.elim⟩
    · obtain ⟨part, lies, spaces⟩ := ih later member
      refine ⟨part, lies.prepend, spaces.mono fun ends => ?_⟩
      rw [ends]
      simp [Nat.add_assoc]

end LaidOut

/-- The tokens of a file are not empty and follow each other through its text without overlap, each
with the text under it as its image; the end of the input comes last, at the end of the file. If
nothing is reported, all that lies in front of, between and behind them is white space and comments.
-/
theorem tokens_follow_the_text (file : File) :
    ∃ front, (Lexed.ofFile file).tokens = front ++ [⟨.endOfInput, .emptyAt file.span.stop, ""⟩] ∧
      (∀ token ∈ front, token.lexeme ≠ .endOfInput ∧ token.span.start < token.span.stop ∧
        file.span.start ≤ token.span.start ∧ token.span.stop ≤ file.span.stop ∧
        (file.toLocal? token.span).bind file.slice? = some token.image.toList) ∧
      (Lexed.ofFile file).tokens.Pairwise (fun left right => left.span.stop ≤ right.span.start) ∧
      ((Lexed.ofFile file).errors = [] →
        ∀ gap ∈ gaps file.span.start (Lexed.ofFile file).tokens,
          ∃ text, (file.toLocal? gap).bind file.slice? = some text ∧
            IsSpacing (gap.stop = file.span.stop) text) := by
  have laidOut := Lexed.laidOut_ofText file.start file.content
  obtain ⟨front, same, facts⟩ := laidOut.exists_front
  refine ⟨front, same, fun token member => ?_, laidOut.pairwise.2, fun clean gap member => ?_⟩
  · obtain ⟨proper, nonempty, lies⟩ := facts token member
    exact ⟨proper, nonempty, lies.bounds.1, lies.bounds.2.2, lies.slice⟩
  · obtain ⟨text, lies, spaces⟩ := laidOut.gaps_spacing clean gap member
    exact ⟨text, lies.slice, spaces⟩

end Cadence
