import Cadence.Proofs.Token.Layout

/-!
# Tokens are free of context

What is read at a position may depend on characters behind the token: a number looks for a
fraction, a sign for a comment. White space answers all these questions in the negative, and so does
the end of the input. So a token is read again as it was if white space or nothing at all follows.
-/
namespace Cadence

open Source (File byteSize)
open Text (CodeRange apostrophe inRanges isBlank quotationMark)

/-- Two lists of ranges that have nothing in common, range by range. -/
theorem not_inRanges_of_apart {left right : List CodeRange}
    (apart : (left.all fun range => right.all fun other =>
      range.last < other.first || other.last < range.first) = true)
    {character : Char} (inside : inRanges left character = true) :
    inRanges right character = false := by
  obtain ⟨range, member, holds⟩ := List.any_eq_true.mp inside
  refine List.any_eq_false.mpr fun other isOther holdsToo => ?_
  have := List.all_eq_true.mp (List.all_eq_true.mp apart range member) other isOther
  simp only [CodeRange.contains, Bool.and_eq_true, Bool.or_eq_true, decide_eq_true_eq] at *
  omega

theorem not_isIdentifierMiddle_of_isBlank {character : Char} (blank : isBlank character = true) :
    isIdentifierMiddle character = false := by
  have letter : Text.isLetter character = false := not_inRanges_of_apart (by decide +kernel) blank
  have number : Text.isNumber character = false := not_inRanges_of_apart (by decide +kernel) blank
  have combining : isCombiningMark character = false := not_inRanges_of_apart (by decide) blank
  have connector : isConnector character = false := not_inRanges_of_apart (by decide) blank
  have format : isFormatCharacter character = false := not_inRanges_of_apart (by decide) blank
  simp [isIdentifierMiddle, letter, number, combining, connector, format]

theorem not_isIdentifierStart_of_isBlank {character : Char} (blank : isBlank character = true) :
    isIdentifierStart character = false := by
  refine Bool.eq_false_iff.mpr fun start => ?_
  have := not_isIdentifierMiddle_of_isBlank blank
  simp [isIdentifierMiddle_of_start start] at this

theorem not_isDigit_of_isBlank {character : Char} (blank : isBlank character = true) :
    character.isDigit = false := by
  have outside : inRanges [⟨0x30, 0x39⟩] character = false :=
    not_inRanges_of_apart (by decide) blank
  simpa [inRanges, CodeRange.contains, Char.isDigit, UInt32.le_iff_toNat_le] using outside

theorem ne_of_isBlank {character : Char} (blank : isBlank character = true) (mark : Char)
    (visible : isBlank mark = false) : character ≠ mark := by
  rintro rfl
  simp [blank] at visible

/-- Nothing follows, or white space. -/
def Stops (behind : List Char) : Prop := ∀ character ∈ behind.head?, isBlank character = true

theorem Stops.of_cons {first : Char} {rest : List Char} (stops : Stops (first :: rest)) :
    isBlank first = true := stops first rfl

/-- The test fails for white space. -/
def IsVisible (test : Char → Bool) : Prop :=
  ∀ ⦃character : Char⦄, isBlank character = true → test character = false

/-- Where a run of characters has ended in front of other characters, it also ends in front of white
space. -/
theorem head_append_stops {test : Char → Bool} (visible : IsVisible test)
    {inner : List Char} (after : List Char) {behind : List Char} (stops : Stops behind)
    (ended : ∀ character ∈ (inner ++ after).head?, test character = false) :
    ∀ character ∈ (inner ++ behind).head?, test character = false := by
  cases inner with
  | nil => exact fun character member => visible (stops character member)
  | cons first inner => exact ended

/-- A run of characters ends at the same place if white space follows later instead of what follows
there. -/
theorem takeWhile_append_stops {test : Char → Bool} (visible : IsVisible test)
    {run : List Char} (inner : List Char) {after behind : List Char} (stops : Stops behind)
    (isRun : (run ++ (inner ++ after)).takeWhile test = run) :
    (run ++ (inner ++ behind)).takeWhile test = run := by
  have inside : ∀ character ∈ run, test character = true :=
    List.all_eq_true.mp (isRun ▸ List.all_takeWhile)
  -- the run ends where it does because of the character behind it
  have ended : (inner ++ after).takeWhile test = [] := by
    rw [List.takeWhile_append_of_pos inside] at isRun
    exact List.append_right_eq_self.mp isRun
  refine takeWhile_append_stop inside (head_append_stops visible after stops ?_)
  intro character member
  obtain ⟨rest, split⟩ := List.head?_eq_some_iff.mp member
  refine Bool.eq_false_iff.mpr fun holds => ?_
  rw [split, List.takeWhile_cons_of_pos holds] at ended
  cases ended

theorem secondIs_append {test : Char → Bool} (visible : IsVisible test) {first : Char}
    {more after behind : List Char} (stops : Stops behind)
    (holds : secondIs test (first :: (more ++ behind)) = true) :
    secondIs test (first :: (more ++ after)) = true := by
  obtain ⟨second, rest, same, passes⟩ := secondIs_eq_true_iff.mp holds
  cases more with
  | nil =>
    cases same
    exact absurd passes (by simp [visible stops.of_cons])
  | cons next more =>
    obtain ⟨rfl, -⟩ := List.cons.inj same
    exact secondIs_eq_true_iff.mpr ⟨_, _, rfl, passes⟩

theorem secondIs_of_ne_nil (test : Char → Bool) (first : Char) {more : List Char}
    (present : more ≠ []) (after behind : List Char) :
    secondIs test (first :: (more ++ after)) = secondIs test (first :: (more ++ behind)) := by
  cases more with
  | nil => contradiction
  | cons second more => rfl

/-- A token is read again if white space or nothing follows the characters taken for it. -/
def ContextFree (read : List Char → Reading) (rest : List Char) : Prop :=
  (read rest).lexeme? ≠ none →
    ∃ more after, rest = more ++ after ∧ more.length = (read rest).extra ∧
      ∀ ⦃behind : List Char⦄, Stops behind → read (more ++ behind) = read rest

namespace ContextFree

variable {rest : List Char}

theorem of_none {read : List Char → Reading} (none : (read rest).lexeme? = none) :
    ContextFree read rest := fun present => absurd none present

theorem of_append {read : List Char → Reading} (more : List Char) {after : List Char}
    (size : more.length = (read (more ++ after)).extra)
    (same : ∀ ⦃behind : List Char⦄, Stops behind → read (more ++ behind) = read (more ++ after)) :
    ContextFree read (more ++ after) := fun _ => ⟨more, after, rfl, size, same⟩

theorem ite_const {condition : Prop} [Decidable condition] {left right : List Char → Reading}
    (first : condition → ContextFree left rest) (second : ¬ condition → ContextFree right rest) :
    ContextFree (fun rest => if condition then left rest else right rest) rest := by
  split
  next holds => exact first holds
  next fails => exact second fails

/-- A decision by characters that follow, if white space decides it in the negative. -/
theorem ite {condition : List Char → Prop} [∀ rest, Decidable (condition rest)]
    {left right : List Char → Reading}
    (first : condition rest → ContextFree left rest)
    (second : ¬ condition rest → ContextFree right rest)
    (lost : ∀ ⦃more after behind : List Char⦄, Stops behind → condition (more ++ behind) →
      condition (more ++ after))
    (kept : ∀ ⦃more after : List Char⦄, condition (more ++ after) →
      (left (more ++ after)).lexeme? ≠ none → more.length = (left (more ++ after)).extra →
      ∀ behind, condition (more ++ behind)) :
    ContextFree (fun rest => if condition rest then left rest else right rest) rest := by
  intro present
  by_cases holds : condition rest
  · simp only [if_pos holds] at present ⊢
    obtain ⟨more, after, rfl, size, same⟩ := first holds present
    refine ⟨more, after, rfl, size, fun behind stops => ?_⟩
    rw [if_pos (kept holds present size behind)]
    exact same stops
  · simp only [if_neg holds] at present ⊢
    obtain ⟨more, after, rfl, size, same⟩ := second holds present
    refine ⟨more, after, rfl, size, fun behind stops => ?_⟩
    rw [if_neg fun now => holds (lost stops now)]
    exact same stops

/-- A decision by the second character, for a token that takes it or for something that is no token.
-/
theorem ite_second {side : Prop} [Decidable side] {test : Char → Bool} {first : Char}
    {left right : List Char → Reading} (visible : IsVisible test)
    (chosen : side → ContextFree left rest)
    (other : ¬ (side ∧ secondIs test (first :: rest) = true) → ContextFree right rest)
    (takes : ∀ ⦃second rest⦄, side → test second = true → (left (second :: rest)).lexeme? ≠ none →
      0 < (left (second :: rest)).extra) :
    ContextFree (fun rest => if side ∧ secondIs test (first :: rest) = true then left rest
      else right rest) rest := by
  refine .ite (fun holds => chosen holds.1) other (fun more after behind stops holds =>
    ⟨holds.1, secondIs_append visible stops holds.2⟩) fun more after holds present size behind => ?_
  obtain ⟨second, rest, split, passes⟩ := secondIs_eq_true_iff.mp holds.2
  rw [split] at size present
  have taken : more ≠ [] := List.ne_nil_of_length_pos (size ▸ takes holds.1 passes present)
  exact ⟨holds.1, (secondIs_of_ne_nil test first taken behind after).trans holds.2⟩

end ContextFree

theorem readDots_one {rest : List Char} (ends : rest.head? ≠ some '.') :
    readDots ('.' :: rest) = .mark 0 .dot := by
  cases rest with
  | nil => rfl
  | cons next rest =>
    have other : next ≠ '.' := fun same => ends (congrArg some same)
    simp [readDots, other]

theorem readDots_two {rest : List Char} (ends : rest.head? ≠ some '.') :
    readDots ('.' :: '.' :: rest) = .mark 1 .rangeOf := by
  cases rest with
  | nil => rfl
  | cons next rest =>
    have other : next ≠ '.' := fun same => ends (congrArg some same)
    simp [readDots, other]

theorem Stops.head_ne {behind : List Char} (stops : Stops behind) {mark : Char}
    (visible : isBlank mark = false) : behind.head? ≠ some mark := fun same =>
  ne_of_isBlank (stops mark same) mark visible rfl

theorem contextFree_readDots (rest : List Char) :
    ContextFree (fun rest => readDots ('.' :: rest)) rest := by
  have visible : isBlank '.' = false := by decide
  -- one dot ends where no second one follows, two where no third one does, and three anyway
  by_cases one : rest.head? = some '.'
  · obtain ⟨rest, rfl⟩ := List.head?_eq_some_iff.mp one
    by_cases two : rest.head? = some '.'
    · obtain ⟨rest, rfl⟩ := List.head?_eq_some_iff.mp two
      exact .of_append ['.', '.'] rfl fun _ _ => rfl
    · exact .of_append ['.'] (congrArg Reading.extra (readDots_two two)).symm
        fun behind stops => (readDots_two (stops.head_ne visible)).trans (readDots_two two).symm
  · exact .of_append [] (congrArg Reading.extra (readDots_one one)).symm
      fun behind stops => (readDots_one (stops.head_ne visible)).trans (readDots_one one).symm

theorem isVisible_isIdentifierMiddle : IsVisible isIdentifierMiddle :=
  fun _ => not_isIdentifierMiddle_of_isBlank

/-- A run of characters of names ends with white space. -/
theorem takeWhile_isIdentifierMiddle {behind : List Char} (stops : Stops behind)
    (text : List Char) :
    (text.takeWhile isIdentifierMiddle ++ behind).takeWhile isIdentifierMiddle =
      text.takeWhile isIdentifierMiddle :=
  takeWhile_append_stops isVisible_isIdentifierMiddle [] stops
    (congrArg (List.takeWhile isIdentifierMiddle)
      (List.takeWhile_append_dropWhile (p := isIdentifierMiddle) (l := text)))

theorem contextFree_readWord (first : Char) (rest : List Char) :
    ContextFree (fun rest => readWord (first :: rest)) rest := fun _ =>
  ⟨rest.takeWhile isIdentifierMiddle, rest.dropWhile isIdentifierMiddle,
    List.takeWhile_append_dropWhile.symm, rfl, fun behind stops => by
      simp only [readWord, List.tail_cons, takeWhile_isIdentifierMiddle stops]; rfl⟩

theorem contextFree_readDirective (first : Char) (rest : List Char) :
    ContextFree (fun rest => readDirective (first :: rest)) rest := fun _ =>
  ⟨rest.takeWhile isIdentifierMiddle, rest.dropWhile isIdentifierMiddle,
    List.takeWhile_append_dropWhile.symm, rfl, fun behind stops => by
      simp only [readDirective, List.tail_cons, takeWhile_isIdentifierMiddle stops]⟩

/-- Signs are visible. -/
def HaveVisibleSpellings (candidates : List (List Char × Lexeme)) : Prop :=
  ∀ candidate ∈ candidates, ∀ character ∈ candidate.1, isBlank character = false

theorem signs_visible : (signs.all fun candidate =>
    !candidate.1.isEmpty && candidate.1.all fun character => !isBlank character) = true := by
  decide +kernel

theorem haveVisibleSpellings_signs : HaveVisibleSpellings signs := by
  intro candidate known character inside
  have visible := List.all_eq_true.mp signs_visible candidate known
  rw [Bool.and_eq_true] at visible
  simpa using List.all_eq_true.mp visible.2 character inside

theorem find?_isEmpty_signs : (signs.find? fun candidate => candidate.1.isEmpty) = none := by
  refine List.find?_eq_none.mpr fun candidate known => ?_
  have visible := List.all_eq_true.mp signs_visible candidate known
  rw [Bool.and_eq_true] at visible
  simpa using visible.1

theorem HaveVisibleSpellings.advance {candidates : List (List Char × Lexeme)}
    (visible : HaveVisibleSpellings candidates) (character : Char) :
    HaveVisibleSpellings (advance character candidates) := by
  intro candidate member
  obtain ⟨⟨spelling, lexeme⟩, known, kept⟩ := List.mem_filterMap.mp member
  cases spelling with
  | nil => cases kept
  | cons first rest =>
    dsimp only at kept
    split at kept
    · cases kept
      exact fun other inside => visible _ known other (List.mem_cons_of_mem first inside)
    · cases kept

/-- No sign goes on with white space. -/
theorem HaveVisibleSpellings.advance_of_isBlank {candidates : List (List Char × Lexeme)}
    (visible : HaveVisibleSpellings candidates) {character : Char}
    (blank : isBlank character = true) : Cadence.advance character candidates = [] := by
  refine List.filterMap_eq_nil_iff.mpr fun candidate known => ?_
  obtain ⟨spelling, lexeme⟩ := candidate
  cases spelling with
  | nil => rfl
  | cons first rest =>
    exact if_neg (ne_of_isBlank blank first (visible _ known first List.mem_cons_self)).symm

theorem HaveVisibleSpellings.munch_of_stops {candidates : List (List Char × Lexeme)}
    (visible : HaveVisibleSpellings candidates) (started : Bool) {behind : List Char}
    (stops : Stops behind) : munch candidates started behind = (0, candidates) := by
  cases behind with
  | nil => rfl
  | cons first behind =>
    rw [munch, visible.advance_of_isBlank stops.of_cons]
    exact ite_self _

theorem opensComment_eq (first : Char) (rest : List Char) :
    opensComment (first :: rest) =
      (first = '/' && secondIs (fun second => second = '#' || second = '*') (first :: rest)) := by
  cases rest with
  | nil => simp [opensComment, secondIs]
  | cons second rest =>
    by_cases slash : first = '/'
    · subst slash
      by_cases hash : second = '#'
      · simp [hash, opensComment, secondIs]
      · by_cases asterisk : second = '*'
        · simp [asterisk, opensComment, secondIs]
        · simp [hash, asterisk, opensComment, secondIs]
    · simp [slash, opensComment]

theorem opensComment_append {first : Char} {more after behind : List Char} (stops : Stops behind)
    (opens : opensComment (first :: (more ++ behind)) = true) :
    opensComment (first :: (more ++ after)) = true := by
  have visible : IsVisible fun second => second = '#' || second = '*' := fun character blank => by
    have := ne_of_isBlank blank '#' (by decide)
    have := ne_of_isBlank blank '*' (by decide)
    simp [*]
  rw [opensComment_eq, Bool.and_eq_true] at opens ⊢
  exact ⟨opens.1, secondIs_append visible stops opens.2⟩

/-- The characters that begin a sign begin it also if white space or nothing follows. -/
def Munches (candidates : List (List Char × Lexeme)) (started : Bool) (text : List Char) : Prop :=
  ∃ taken after, text = taken ++ after ∧ taken.length = (munch candidates started text).1 ∧
    ∀ ⦃behind : List Char⦄, Stops behind →
      munch candidates started (taken ++ behind) = munch candidates started text

theorem HaveVisibleSpellings.munches_of_zero {candidates : List (List Char × Lexeme)}
    (visible : HaveVisibleSpellings candidates) {started : Bool} {text : List Char}
    (ends : munch candidates started text = (0, candidates)) : Munches candidates started text :=
  ⟨[], text, rfl, by rw [ends]; rfl, fun _ stops =>
    (visible.munch_of_stops started stops).trans ends.symm⟩

theorem HaveVisibleSpellings.munches (text : List Char) {candidates : List (List Char × Lexeme)}
    (visible : HaveVisibleSpellings candidates) (started : Bool) :
    Munches candidates started text := by
  -- each character leaves fewer candidates, and those that are left have visible rests
  induction text generalizing candidates started with
  | nil => exact visible.munches_of_zero rfl
  | cons character rest ih =>
    by_cases comment : started ∧ opensComment (character :: rest)
    · exact visible.munches_of_zero (by rw [munch, if_pos comment])
    cases advanced : Cadence.advance character candidates with
    | nil => exact visible.munches_of_zero (by rw [munch, if_neg comment, advanced])
    | cons candidate others =>
      obtain ⟨taken, after, rfl, size, same⟩ := ih (advanced ▸ visible.advance character) true
      refine ⟨character :: taken, after, rfl, ?_, fun behind stops => ?_⟩
      · rw [munch, if_neg comment, advanced]
        simp [size]
      · have noComment : ¬ (started ∧ opensComment (character :: (taken ++ behind))) :=
          fun opens => comment ⟨opens.1, opensComment_append stops opens.2⟩
        rw [List.cons_append, munch, if_neg noComment, munch, if_neg comment, advanced]
        simp only [same stops]

theorem readSign_of_some {text : List Char} {candidate : List Char × Lexeme}
    (found : (munch signs false text).2.find? (fun candidate => candidate.1.isEmpty) =
      some candidate) :
    readSign text = .token ((munch signs false text).1 - 1) candidate.2 := by
  simp only [readSign, found]

theorem readSign_of_none {text : List Char}
    (absent : (munch signs false text).2.find? (fun candidate => candidate.1.isEmpty) = none) :
    (readSign text).lexeme? = none := by
  simp only [readSign, absent]
  rfl

theorem contextFree_readSign (first : Char) (rest : List Char) :
    ContextFree (fun rest => readSign (first :: rest)) rest := by
  obtain ⟨taken, after, split, size, same⟩ :=
    haveVisibleSpellings_signs.munches (first :: rest) false
  cases found : (munch signs false (first :: rest)).2.find?
      fun candidate => candidate.1.isEmpty with
  | none => exact .of_none (readSign_of_none found)
  | some candidate =>
    cases taken with
    | nil =>
      -- no sign is empty
      have all : munch signs false (first :: rest) = (0, signs) := (@same [] nofun).symm
      rw [all, find?_isEmpty_signs] at found
      cases found
    | cons character more =>
      rw [List.cons_append] at split
      obtain ⟨rfl, rfl⟩ := List.cons.inj split
      have token := readSign_of_some found
      rw [← size] at token
      refine .of_append _ (congrArg Reading.extra token).symm fun behind stops => ?_
      have again : munch signs false (first :: (more ++ behind)) = _ := same stops
      rw [token, readSign_of_some (again ▸ found), again, ← size]

theorem stringBody_quotationMark (rest : List Char) :
    stringBody (quotationMark :: rest) = ⟨[], 1, .closed⟩ := by
  unfold stringBody
  exact if_pos rfl

theorem exists_of_stringBody {text : List Char} (closed : (stringBody text).ending = .closed) :
    ∃ inside after, text = inside ++ after ∧ inside.length = (stringBody text).size ∧
      ∀ behind, stringBody (inside ++ behind) = stringBody text := by
  fun_induction stringBody text with
  | case1 => simp at closed
  | case2 rest => exact ⟨[_], rest, rfl, rfl, fun behind => stringBody_quotationMark behind⟩
  | case3 => simp at closed
  | case4 => simp at closed
  | case5 next rest notMark notBreak ih =>
    obtain ⟨inside, after, rfl, size, same⟩ := ih closed
    refine ⟨'\\' :: next :: inside, after, rfl, ?_, fun behind => ?_⟩
    · simp only [LiteralBody.cons, List.length_cons, size]
      omega
    · rw [List.cons_append, List.cons_append, stringBody.eq_def]
      simp only [if_neg notMark, if_neg notBreak, if_true, same]
  | case6 character rest notMark notBreak notEscape ih =>
    obtain ⟨inside, after, rfl, size, same⟩ := ih closed
    refine ⟨character :: inside, after, rfl, ?_, fun behind => ?_⟩
    · simp only [LiteralBody.cons, List.length_cons, size]
      omega
    · rw [List.cons_append, stringBody.eq_def]
      simp only [if_neg notMark, if_neg notBreak, if_neg notEscape, same]

theorem exists_of_verbatimBody {text : List Char} (closed : (verbatimBody text).ending = .closed) :
    ∃ inside after, text = inside ++ after ∧ inside.length = (verbatimBody text).size ∧
      ∀ behind, verbatimBody (inside ++ behind) = verbatimBody text := by
  -- a delimiter that is escaped is skipped together with the one behind it
  fun_induction verbatimBody text with
  | case1 => simp at closed
  | case2 rest =>
    exact ⟨[_], rest, rfl, rfl, fun behind => by
      unfold verbatimBody
      exact if_pos rfl⟩
  | case3 => simp [verbatimBody, LiteralBody.cons] at closed
  | case4 character notMark next others escaped ih =>
    obtain ⟨inside, after, rfl, size, same⟩ := ih closed
    refine ⟨character :: next :: inside, after, rfl, ?_, fun behind => ?_⟩
    · simp only [LiteralBody.cons, List.length_cons, size]
      omega
    · rw [List.cons_append, List.cons_append, verbatimBody.eq_def]
      simp only [if_neg notMark, if_pos escaped, same]
  | case5 character notMark next others notEscaped ih =>
    obtain ⟨inside, after, split, size, same⟩ := ih closed
    cases inside with
    | nil =>
      -- the delimiter is taken at least
      have := (congrArg LiteralBody.ending (same [])).trans closed
      simp [verbatimBody] at this
    | cons first inside =>
      rw [List.cons_append] at split
      obtain ⟨rfl, rfl⟩ := List.cons.inj split
      refine ⟨character :: next :: inside, after, rfl, ?_, fun behind => ?_⟩
      · rw [LiteralBody.cons, List.length_cons, size]
        exact Nat.add_comm _ _
      · have again := same behind
        rw [List.cons_append] at again
        rw [List.cons_append, List.cons_append, verbatimBody.eq_def]
        simp only [if_neg notMark, if_neg notEscaped, again]

theorem LiteralBody.reading_of_closed {text : List Char} {kind : LiteralKind} {body : LiteralBody}
    (closed : body.ending = .closed) :
    body.reading text kind = .token body.size (.text (String.ofList body.content)) := by
  simp only [reading, closed]

theorem LiteralBody.reading_of_open {text : List Char} {kind : LiteralKind} {body : LiteralBody}
    (isOpen : body.ending ≠ .closed) : (body.reading text kind).lexeme? = none := by
  unfold reading
  split
  next closed => exact absurd closed isOpen
  next => rfl
  next => rfl

/-- A literal that is closed is one token, and one that is not closed is none. -/
theorem LiteralBody.contextFree {body : List Char → LiteralBody} {kind : LiteralKind}
    (taken : ∀ text, (body text).ending = .closed →
      ∃ inside after, text = inside ++ after ∧ inside.length = (body text).size ∧
        ∀ behind, body (inside ++ behind) = body text) (first : Char) (rest : List Char) :
    ContextFree (fun rest => (body rest).reading (first :: rest) kind) rest := by
  by_cases closed : (body rest).ending = .closed
  · obtain ⟨inside, after, rfl, size, same⟩ := taken rest closed
    refine .of_append _ ?_ fun behind _ => ?_
    · rw [reading_of_closed closed]
      exact size
    · rw [same, reading_of_closed closed, reading_of_closed closed]
  · exact .of_none (reading_of_open closed)

theorem contextFree_readString (first : Char) (rest : List Char) :
    ContextFree (fun rest => readString (first :: rest)) rest :=
  LiteralBody.contextFree (fun _ => exists_of_stringBody) first rest

theorem contextFree_readVerbatimString (first : Char) (rest : List Char) :
    ContextFree (fun rest => readVerbatimString (first :: rest)) rest :=
  LiteralBody.contextFree (fun _ => exists_of_verbatimBody) first rest

theorem closeCharacter_of_closed (first : Char) (inside behind : List Char) (character : Char) :
    closeCharacter (first :: (inside ++ apostrophe :: behind)) inside.length character =
      .token (inside.length + 1) (.character character) := by
  simp [closeCharacter]

theorem closeCharacter_of_open {text : List Char} {extra : Nat} {character : Char}
    (isOpen : (text.drop (extra + 1)).head? ≠ some apostrophe) :
    (closeCharacter text extra character).lexeme? = none := by
  unfold closeCharacter
  split
  next => rfl
  next next rest found =>
    rw [if_neg]
    · rfl
    · rintro rfl
      exact isOpen (by rw [found]; rfl)

/-- A character literal that is closed is one token, and one that is not closed is none. -/
theorem contextFree_closeCharacter (first : Char) (inside rest : List Char) (character : Char)
    {read : List Char → Reading} (reads : ∀ rest, read (inside ++ rest) =
      closeCharacter (first :: (inside ++ rest)) inside.length character) :
    ContextFree read (inside ++ rest) := by
  by_cases closed : rest.head? = some apostrophe
  · obtain ⟨after, rfl⟩ := List.head?_eq_some_iff.mp closed
    have token (behind : List Char) : read (inside ++ apostrophe :: behind) = _ :=
      (reads _).trans (closeCharacter_of_closed first inside behind character)
    rw [List.append_cons]
    refine .of_append (inside ++ [apostrophe]) ?_ fun behind _ => ?_
    · rw [List.append_assoc, List.singleton_append, token]
      simp [Reading.token]
    · rw [List.append_assoc, List.singleton_append, token, List.append_assoc,
        List.singleton_append, token]
  · refine .of_none ?_
    rw [reads]
    exact closeCharacter_of_open (by simpa using closed)

theorem contextFree_readCharacter (first : Char) (rest : List Char) :
    ContextFree (fun rest => readCharacter (first :: rest)) rest := by
  cases rest with
  | nil => exact .of_none rfl
  | cons character rest =>
    by_cases escape : character = '\\'
    · subst escape
      cases rest with
      | nil => exact .of_none rfl
      | cons next rest =>
        exact contextFree_closeCharacter first ['\\', next] rest (escapedCharacter next)
          fun _ => rfl
    by_cases lineBreak : character = '\n'
    · subst lineBreak
      exact .of_none rfl
    by_cases empty : character = apostrophe
    · subst empty
      exact .of_none rfl
    exact contextFree_closeCharacter first [character] rest character fun _ => by
      simp [readCharacter, escape, lineBreak, empty]

end Cadence
