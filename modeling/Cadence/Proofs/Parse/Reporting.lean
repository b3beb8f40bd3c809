import Cadence.Proofs.Parse.Anchors
import Cadence.Proofs.Parse.Progress

/-!
# What parsers report

A report is about a token that was taken, or about the current one as one that does not fit. In the
first case the parser has moved on, and nobody looks at the token again. In the second case parsing
goes on at the same token, where it may be found out of place once more.

`Parser.Adds` says of the run of a parser that no two reports up to its end are the same, and what
the reports are about if it succeeds and if it fails. A parser that succeeds has moved behind all
that it reported.
-/
namespace Cadence

open Source (File Span)

/-- The token stands directly behind a `defer`. -/
def IsDeferred (tokens : List Token) (token : Token) : Prop :=
  ∃ mark, [mark, token] <:+: tokens ∧ mark.lexeme = .keyword .defer

/-- Two reports are about different places or label them in different ways, unless the first one is
about a token behind a `defer` that no node starts with. -/
def ParseError.Differs (tokens : List Token) (earlier later : ParseError) : Prop :=
  earlier.site = later.site → earlier.label = later.label →
    ∃ token, earlier = .noNode token ∧ IsDeferred tokens token

namespace ParseState

variable {tokens : List Token} {before middle after : ParseState}

/-- Where the current token starts. -/
def site (state : ParseState) : Nat := state.current.token.span.start

/-- The tokens from the current one on, and the end of the input. -/
def rest (state : ParseState) : List Token :=
  (state.ahead ++ [state.finish]).map PlacedToken.token

theorem exists_rest (state : ParseState) : ∃ behind, state.rest = state.current.token :: behind := by
  cases tokens : state.ahead with
  | nil => exact ⟨[], by simp [rest, current, tokens]⟩
  | cons first others => exact ⟨_, by simp [rest, current, tokens]; rfl⟩

theorem rest_suffix (reaches : before.Reaches after) : after.rest <:+ before.rest := by
  rw [rest, rest, reaches.finish_eq]
  obtain ⟨front, split⟩ := reaches.ahead_suffix
  exact ⟨front.map PlacedToken.token, by rw [← split]; simp⟩

/-- The state is one in the parsing of some tokens, each of which starts behind the one before. -/
structure StandsIn (tokens : List Token) (state : ParseState) : Prop where
  ended : state.IsEnded
  increasing : tokens.Pairwise fun earlier later => earlier.span.start < later.span.start
  suffix : state.rest <:+ tokens

namespace StandsIn

theorem of_reaches (stands : before.StandsIn tokens) (reaches : before.Reaches after) :
    after.StandsIn tokens :=
  ⟨stands.ended.of_reaches reaches, stands.increasing, (rest_suffix reaches).trans stands.suffix⟩

/-- The current token changes only to one that starts further behind. -/
theorem site_lt_or (stands : before.StandsIn tokens) (reaches : before.Reaches after) :
    before.site < after.site ∨ after.rest = before.rest := by
  obtain ⟨front, split⟩ := rest_suffix reaches
  cases front with
  | nil => exact .inr split
  | cons first front =>
    -- the token that was current is in front of the one that is now
    left
    have increasing := stands.increasing.sublist stands.suffix.sublist
    obtain ⟨behind, same⟩ := after.exists_rest
    obtain ⟨others, current⟩ := before.exists_rest
    rw [current, same, List.cons_append] at split
    obtain ⟨rfl, rfl⟩ := List.cons.inj split
    rw [current] at increasing
    exact (List.pairwise_cons.mp increasing).1 _ (by simp)

theorem site_le (stands : before.StandsIn tokens) (reaches : before.Reaches after) :
    before.site ≤ after.site := by
  rcases stands.site_lt_or reaches with less | same
  · exact Nat.le_of_lt less
  · obtain ⟨behind, current⟩ := before.exists_rest
    obtain ⟨others, last⟩ := after.exists_rest
    rw [current, last] at same
    have alike : before.current.token = after.current.token := (List.cons.inj same).1.symm
    exact Nat.le_of_eq (congrArg (fun token => token.span.start) alike)

theorem site_lt (stands : before.StandsIn tokens) (reaches : before.Reaches after)
    (less : after.ahead.length < before.ahead.length) : before.site < after.site := by
  rcases stands.site_lt_or reaches with moved | same
  · exact moved
  · have lengths := congrArg List.length same
    simp only [rest, List.length_map, List.length_append, List.length_singleton] at lengths
    omega

end StandsIn

/-- No two reports are the same, and all of them are about places in front of the current token. -/
structure IsSettled (tokens : List Token) (state : ParseState) : Prop where
  stands : state.StandsIn tokens
  distinct : state.errors.Pairwise (ParseError.Differs tokens)
  behind : ∀ error ∈ state.errors, error.site < state.site

/-- No two reports are the same, and all of them are about places in front of the current token, or
about the current one as one that does not fit. -/
structure MayPend (tokens : List Token) (state : ParseState) : Prop where
  stands : state.StandsIn tokens
  distinct : state.errors.Pairwise (ParseError.Differs tokens)
  behind : ∀ error ∈ state.errors, error.site < state.site ∨
    error.site = state.site ∧ error.IsPending ∧
      ∀ token, error = .noNode token → IsDeferred tokens token

/-- What was reported since some state is about places from an index on. -/
def Since (low : Nat) (before after : ParseState) : Prop :=
  ∀ error ∈ after.errors, error ∈ before.errors ∨ low ≤ error.site

/-- Nothing was reported under a label about the token that starts at an index, and that token was
taken. -/
structure Spares (start : Nat) (label : String) (state : ParseState) : Prop where
  taken : start < state.site
  silent : ∀ error ∈ state.errors, error.site = start → error.label ≠ label

theorem Since.refl (low : Nat) (state : ParseState) : Since low state state := fun _ => .inl

theorem Since.trans {low : Nat} (first : Since low before middle) (second : Since low middle after) :
    Since low before after := by
  intro error member
  rcases second error member with old | new
  · exact first error old
  · exact .inr new

theorem Since.lower {low lower : Nat} (since : Since low before after) (le : lower ≤ low) :
    Since lower before after :=
  fun error member => (since error member).imp_right (Nat.le_trans le)

theorem IsSettled.mayPend (settled : before.IsSettled tokens) : before.MayPend tokens :=
  ⟨settled.stands, settled.distinct, fun error member => .inl (settled.behind error member)⟩

/-- What is reported about later tokens is not about one that was taken. -/
theorem Spares.of_since {start : Nat} {label : String} (spares : before.Spares start label)
    (stands : before.StandsIn tokens) (reaches : before.Reaches after)
    (since : Since before.site before after) : after.Spares start label where
  taken := Nat.lt_of_lt_of_le spares.taken (stands.site_le reaches)
  silent error member sameSite := by
    rcases since error member with old | new
    · exact spares.silent error old sameSite
    · have := spares.taken
      omega

/-- What holds behind a parser that has succeeded. If it is quiet, it has not reported anything. -/
structure Follows (tokens : List Token) (quiet : Prop) (before after : ParseState) : Prop where
  reaches : before.Reaches after
  settled : after.IsSettled tokens
  since : Since before.site before after
  silent : quiet → after.errors = before.errors

namespace Follows

variable {quiet : Prop}

theorem refl (settled : before.IsSettled tokens) : Follows tokens quiet before before :=
  ⟨.refl _, settled, .refl _ _, fun _ => rfl⟩

theorem trans (stands : before.StandsIn tokens) (first : Follows tokens quiet before middle)
    (second : Follows tokens quiet middle after) : Follows tokens quiet before after where
  reaches := first.reaches.trans second.reaches
  settled := second.settled
  since := first.since.trans (second.since.lower (stands.site_le first.reaches))
  silent isQuiet := (second.silent isQuiet).trans (first.silent isQuiet)

/-- Who goes on with the parsing of some tokens without reports finds out nothing. -/
theorem of_same (settled : before.IsSettled tokens) (reaches : before.Reaches after)
    (same : after.errors = before.errors) : Follows tokens quiet before after where
  reaches
  settled := by
    refine ⟨settled.stands.of_reaches reaches, same ▸ settled.distinct, fun error member => ?_⟩
    exact Nat.lt_of_lt_of_le (settled.behind error (same ▸ member)) (settled.stands.site_le reaches)
  since error member := .inl (same ▸ member)
  silent _ := same

theorem spares (follows : Follows tokens quiet before after) (stands : before.StandsIn tokens)
    {start : Nat} {label : String} (spares : before.Spares start label) :
    after.Spares start label :=
  spares.of_since stands follows.reaches follows.since

end Follows

theorem distinct_concat {errors : List ParseError} {error : ParseError}
    (distinct : errors.Pairwise (ParseError.Differs tokens))
    (new : ∀ other ∈ errors, other.Differs tokens error) :
    (errors ++ [error]).Pairwise (ParseError.Differs tokens) := by
  refine List.pairwise_append.mpr ⟨distinct, List.pairwise_singleton _ _, fun other member last => ?_⟩
  rintro isLast
  exact List.mem_singleton.mp isLast ▸ new other member

/-- The state behind a report. -/
def told (error : ParseError) (state : ParseState) : ParseState :=
  ((Parser.report error).run state).2

theorem Since.told {low : Nat} {error : ParseError} (pointed : low ≤ error.site) :
    Since low before (before.told error) := by
  intro other member
  refine (List.mem_append.mp member).imp_right fun new => ?_
  rwa [List.mem_singleton.mp new]

theorem Spares.told {start : Nat} {label : String} {error : ParseError}
    (spares : before.Spares start label) (other : error.label ≠ label) :
    (before.told error).Spares start label where
  taken := spares.taken
  silent earlier member := by
    rcases List.mem_append.mp member with old | new
    · exact spares.silent earlier old
    · exact fun _ => List.mem_singleton.mp new ▸ other

theorem StandsIn.told (stands : before.StandsIn tokens) (error : ParseError) :
    (before.told error).StandsIn tokens := ⟨stands.ended, stands.increasing, stands.suffix⟩

/-- A report about a token that was taken, and about which it was not made before. -/
theorem MayPend.told (mayPend : before.MayPend tokens) {error : ParseError}
    (spares : before.Spares error.site error.label) : (before.told error).MayPend tokens := by
  refine ⟨mayPend.stands.told error, ?_, fun other member => ?_⟩
  · exact distinct_concat mayPend.distinct fun other member sameSite sameLabel =>
      absurd sameLabel (spares.silent other member sameSite)
  · rcases List.mem_append.mp member with old | new
    · exact mayPend.behind other old
    · exact .inl (List.mem_singleton.mp new ▸ spares.taken)

theorem IsSettled.told (settled : before.IsSettled tokens) {error : ParseError}
    (spares : before.Spares error.site error.label) : (before.told error).IsSettled tokens := by
  refine ⟨settled.stands.told error, (settled.mayPend.told spares).distinct, fun other member => ?_⟩
  rcases List.mem_append.mp member with old | new
  · exact settled.behind other old
  · exact List.mem_singleton.mp new ▸ spares.taken

/-- A report about the current token as one that does not fit. -/
theorem IsSettled.told_pending (settled : before.IsSettled tokens) {error : ParseError}
    (here : error.site = before.site) (pending : error.IsPending)
    (deferred : ∀ token, error = .noNode token → IsDeferred tokens token) :
    (before.told error).MayPend tokens := by
  refine ⟨settled.stands.told error, ?_, fun other member => ?_⟩
  · -- all reports so far are about places in front of this one
    refine distinct_concat settled.distinct fun other member sameSite => ?_
    have less := settled.behind other member
    omega
  · rcases List.mem_append.mp member with old | new
    · exact .inl (settled.behind other old)
    · obtain rfl := List.mem_singleton.mp new
      exact .inr ⟨here, pending, deferred⟩

/-- What holds behind the taking of a token. -/
structure Passes (tokens : List Token) (before after : ParseState) : Prop where
  reaches : before.Reaches after
  settled : after.IsSettled tokens
  same : after.errors = before.errors
  moved : before.site < after.site
  adjacent : [before.current.token, after.current.token] <:+: tokens
  /-- Nothing was said about the token, except that it does not fit. -/
  spares : ∀ label ∉ ParseError.pendingLabels, after.Spares before.site label

/-- The state behind the current token. -/
def skip (state : ParseState) : ParseState := { state with ahead := state.ahead.tail }

theorem StandsIn.ahead_ne_nil (stands : before.StandsIn tokens)
    (present : before.current.token.lexeme ≠ .endOfInput) : before.ahead ≠ [] := by
  intro none
  rw [current, none] at present
  exact present stands.ended

theorem passes_skip (mayPend : before.MayPend tokens) (left : before.ahead ≠ []) :
    Passes tokens before before.skip := by
  have stands := mayPend.stands
  have reaches : before.Reaches before.skip := Parser.advance.reaches before
  obtain ⟨first, others, split⟩ := List.exists_cons_of_ne_nil left
  have moved := stands.site_lt reaches (by simp [skip, split])
  refine ⟨reaches, ⟨stands.of_reaches reaches, mayPend.distinct, fun error member => ?_⟩, rfl, moved,
    ?_, fun label notPending => ⟨moved, fun error member sameSite sameLabel => ?_⟩⟩
  · rcases mayPend.behind error member with less | ⟨same, -, -⟩
    · exact Nat.lt_trans less moved
    · exact same ▸ moved
  · -- the two tokens are the first ones of what is left
    obtain ⟨behind, last⟩ := before.skip.exists_rest
    have start : before.rest = before.current.token :: before.skip.rest := by
      simp [rest, current, skip, split]
    rw [last] at start
    exact List.IsInfix.trans ⟨[], behind, by simpa using start.symm⟩ stands.suffix.isInfix
  · rcases mayPend.behind error member with less | ⟨-, pending, -⟩
    · omega
    · -- what was said of the token as one that does not fit has another label
      exact notPending (sameLabel ▸ pending)

end ParseState

/-- The tokens that parsing starts with are all there to be parsed. -/
theorem Parsed.rest_start (file : File) (tokens : List Token) :
    (start file tokens).rest = endTokens file tokens := by
  obtain ⟨front, ending, same, -⟩ := exists_endTokens file tokens
  have placed := map_token_placeTokens file (endTokens file tokens)
  rw [start]
  -- the last token is that of the end, with which the input of the parser is finished
  rcases List.eq_nil_or_concat (placeTokens file (endTokens file tokens)) with none | split
  · rw [none, same] at placed
    simp at placed
  · obtain ⟨others, ending, split⟩ := split
    rw [split, List.concat_eq_append] at placed ⊢
    simpa [ParseState.rest, ParseState.fresh] using placed

namespace Parser

open ParseState (Follows Passes Since)

variable {α β : Type} {before : ParseState} {post : β → ParseState → Prop}

/-- What holds behind a parser that succeeds, and behind one that fails. -/
def Meets (parser : Parser α) (before : ParseState) (post : α → ParseState → Prop)
    (failed : ParseState → Prop) : Prop :=
  (∀ result ∈ (parser.run before).1, post result (parser.run before).2) ∧
    ((parser.run before).1 = none → failed (parser.run before).2)

namespace Meets

variable {failed : ParseState → Prop}

theorem pure {result : β} (known : post result before) :
    (pure result : Parser β).Meets before post failed :=
  ⟨fun _ same => Option.some.inj same ▸ known, nofun⟩

theorem bind {parser : Parser α} {next : α → Parser β} {middle : α → ParseState → Prop}
    (first : parser.Meets before middle failed)
    (second : ∀ result after, before.Reaches after → middle result after →
      (next result).Meets after post failed) :
    (parser >>= next).Meets before post failed := by
  have reaches := parser.reaches before
  obtain ⟨known, fails⟩ := first
  rw [Meets, run_bind]
  split
  next value state same =>
    rw [same] at reaches known
    exact second value state reaches (known value rfl)
  next state same =>
    rw [same] at fails
    refine ⟨?_, fun _ => fails rfl⟩
    rintro result ⟨⟩

theorem mono {parser : Parser β} {weaker : β → ParseState → Prop} {weakly : ParseState → Prop}
    (meets : parser.Meets before post failed)
    (implies : ∀ result after, before.Reaches after → post result after → weaker result after)
    (fails : ∀ after, before.Reaches after → failed after → weakly after) :
    parser.Meets before weaker weakly :=
  ⟨fun result found => implies result _ (parser.reaches before) (meets.1 result found),
    fun silent => fails _ (parser.reaches before) (meets.2 silent)⟩

theorem ite {condition : Prop} [Decidable condition] {left right : Parser β}
    (first : condition → left.Meets before post failed)
    (second : ¬ condition → right.Meets before post failed) :
    (if condition then left else right).Meets before post failed := by
  split
  next holds => exact first holds
  next fails => exact second fails

theorem look {result : ParseState → α} {next : α → Parser β}
    (known : (next (result before)).Meets before post failed) :
    (Parser.look result >>= next).Meets before post failed := known

theorem token {next : Token → Parser β}
    (known : (next before.current.token).Meets before post failed) :
    (token >>= next).Meets before post failed := known

/-- Taking the current token never fails. -/
theorem advance {next : Unit → Parser β} (known : (next ()).Meets before.skip post failed) :
    (Parser.advance >>= next).Meets before post failed := known

end Meets

/-- What holds of the outcome of a step of a loop and of the state behind it. -/
def Outcome (invariant : α → ParseState → Prop) (post : β → ParseState → Prop) :
    Step α β → ParseState → Prop
  | .more state, after => invariant state after
  | .done result, after => post result after

theorem Meets.loop {step : α → Parser (Step α β)} {failed : ParseState → Prop}
    (invariant : α → ParseState → Prop)
    (each : ∀ state after, invariant state after →
      (step state).Meets after (Outcome invariant post) failed)
    (givenUp : ∀ state after, invariant state after → failed { after with exhausted := true })
    {state : α} (initial : invariant state before) :
    (loop step state).Meets before post failed := by
  suffices within : ∀ budget, (repeatWithin step budget state).Meets before post failed from
    look (within _)
  intro budget
  induction budget generalizing state before with
  | zero => exact ⟨nofun, fun _ => givenUp state before initial⟩
  | succ budget ih =>
    refine bind (each state before initial) fun outcome after _ known => ?_
    cases outcome with
    | more state => exact ih known
    | done result => exact pure known

variable {tokens : List Token} {quiet : Prop} {low : Nat}

/-- Reports are about places from an index on, and what was reported so far is about places in front
of the current token. -/
structure Starts (tokens : List Token) (low : Nat) (state : ParseState) : Prop where
  settled : state.IsSettled tokens
  le : low ≤ state.site

/-- As `Starts`, but the current token may have been found out of place. -/
structure Opens (tokens : List Token) (low : Nat) (state : ParseState) : Prop where
  mayPend : state.MayPend tokens
  le : low ≤ state.site

theorem Starts.opens (starts : Starts tokens low before) : Opens tokens low before :=
  ⟨starts.settled.mayPend, starts.le⟩

theorem Starts.here (starts : Starts tokens low before) : Starts tokens before.site before :=
  ⟨starts.settled, Nat.le_refl _⟩

theorem Opens.follow (opens : Opens tokens low before) {after : ParseState}
    (follows : Follows tokens quiet before after) : Starts tokens low after :=
  ⟨follows.settled, Nat.le_trans opens.le (opens.mayPend.stands.site_le follows.reaches)⟩

/-- No two reports up to the end of the run are the same. If the parser succeeds, the reports are
about places in front of what comes next. If it fails, the last ones may be about the current token,
and what it adds is about places from the given index on. -/
def Adds (parser : Parser α) (tokens : List Token) (quiet : Prop) (low : Nat) (before : ParseState)
    (post : α → ParseState → Prop) : Prop :=
  parser.Meets before (fun result after => Follows tokens quiet before after ∧ post result after)
    fun after => after.MayPend tokens ∧ Since low before after

namespace Adds

theorem ite {condition : Prop} [Decidable condition] {left right : Parser β}
    (first : condition → left.Adds tokens quiet low before post)
    (second : ¬ condition → right.Adds tokens quiet low before post) :
    (if condition then left else right).Adds tokens quiet low before post :=
  Meets.ite first second

theorem look {result : ParseState → α} {next : α → Parser β}
    (known : (next (result before)).Adds tokens quiet low before post) :
    (Parser.look result >>= next).Adds tokens quiet low before post := known

theorem token {next : Token → Parser β}
    (known : (next before.current.token).Adds tokens quiet low before post) :
    (token >>= next).Adds tokens quiet low before post := known

theorem pure (starts : Starts tokens low before) {result : β} (known : post result before) :
    (pure result : Parser β).Adds tokens quiet low before post :=
  Meets.pure ⟨.refl starts.settled, known⟩

theorem bind {parser : Parser α} {next : α → Parser β} {middle : α → ParseState → Prop}
    (first : parser.Adds tokens quiet low before middle) (opens : Opens tokens low before)
    (second : ∀ result after, Starts tokens low after → Follows tokens quiet before after →
      middle result after → (next result).Adds tokens quiet low after post) :
    (parser >>= next).Adds tokens quiet low before post := by
  refine Meets.bind first fun result middle _ known => ?_
  obtain ⟨follows, holds⟩ := known
  have starts := opens.follow follows
  refine Meets.mono (second result middle starts follows holds) (fun last after _ known => ?_)
    fun after _ fails => ⟨fails.1, ?_⟩
  · exact ⟨follows.trans opens.mayPend.stands known.1, known.2⟩
  · exact (follows.since.lower opens.le).trans fails.2

theorem mono {parser : Parser β} {weaker : β → ParseState → Prop}
    (adds : parser.Adds tokens quiet low before post)
    (implies : ∀ result after, before.Reaches after → post result after → weaker result after) :
    parser.Adds tokens quiet low before weaker :=
  Meets.mono adds (fun result after reaches known => ⟨known.1, implies result after reaches known.2⟩)
    fun _ _ fails => fails

theorem lower {parser : Parser β} {lower : Nat} (adds : parser.Adds tokens quiet low before post)
    (le : lower ≤ low) : parser.Adds tokens quiet lower before post :=
  Meets.mono adds (fun _ _ _ known => known) fun _ _ fails => ⟨fails.1, fails.2.lower le⟩

/-- What does not report anything is no louder than what is asked for. -/
theorem quietly {parser : Parser β} (adds : parser.Adds tokens True low before post) :
    parser.Adds tokens quiet low before fun result after =>
      after.errors = before.errors ∧ post result after :=
  Meets.mono adds
    (fun _ _ _ known =>
      ⟨{ known.1 with silent := fun _ => known.1.silent trivial }, known.1.silent trivial, known.2⟩)
    fun _ _ fails => fails

theorem exhaust (opens : Opens tokens low before) :
    (exhaust : Parser β).Adds tokens quiet low before post := by
  refine ⟨nofun, fun _ => ⟨?_, .refl _ _⟩⟩
  exact ⟨⟨opens.mayPend.stands.ended, opens.mayPend.stands.increasing, opens.mayPend.stands.suffix⟩,
    opens.mayPend.distinct, opens.mayPend.behind⟩

/-- A report about a token that was taken, and about which it was not made before. -/
theorem fail (opens : Opens tokens low before) {error : ParseError} (pointed : low ≤ error.site)
    (spares : before.Spares error.site error.label) :
    (fail error : Parser β).Adds tokens quiet low before post :=
  ⟨nofun, fun _ => ⟨opens.mayPend.told spares, .told pointed⟩⟩

/-- A report about the current token as one that does not fit. -/
theorem failPending (starts : Starts tokens low before) {error : ParseError}
    (here : error.site = before.site) (pending : error.IsPending)
    (deferred : ∀ token, error = .noNode token → IsDeferred tokens token) :
    (Parser.fail error : Parser β).Adds tokens quiet low before post :=
  ⟨nofun, fun _ => ⟨starts.settled.told_pending here pending deferred, .told (here ▸ starts.le)⟩⟩

theorem failExpecting (starts : Starts tokens low before) (expected : List Expected)
    (demand : Option (Demand × Token)) :
    (failExpecting expected demand : Parser β).Adds tokens quiet low before post :=
  token (failPending starts rfl (by simp [ParseError.IsPending, ParseError.label,
    ParseError.pendingLabels]) nofun)

theorem failUnclosed (opens : Opens tokens low before) {opening : Token}
    (pointed : low ≤ opening.span.start)
    (spares : before.Spares opening.span.start "unclosed delimiter") :
    (failUnclosed opening : Parser β).Adds tokens quiet low before post :=
  token (fail opens pointed spares)

theorem take (opens : Opens tokens low before) (left : before.ahead ≠ []) {next : Unit → Parser β}
    (known : ∀ after, Starts tokens low after → Passes tokens before after →
      (next ()).Adds tokens quiet low after post) :
    (Parser.advance >>= next).Adds tokens quiet low before post := by
  have passes := ParseState.passes_skip opens.mayPend left
  have follows : Follows tokens quiet before before.skip :=
    ⟨passes.reaches, passes.settled, fun _ member => .inl member, fun _ => passes.same⟩
  have skips : Parser.advance.Adds tokens quiet low before fun _ after => after = before.skip :=
    ⟨fun _ _ => ⟨follows, rfl⟩, nofun⟩
  refine skips.bind opens fun _ after starts _ same => ?_
  subst same
  exact known _ starts passes

/-- Any token but the end of the input can be taken. -/
theorem advance (opens : Opens tokens low before)
    (present : before.current.token.lexeme ≠ .endOfInput) {next : Unit → Parser β}
    (known : ∀ after, Starts tokens low after → Passes tokens before after →
      (next ()).Adds tokens quiet low after post) :
    (Parser.advance >>= next).Adds tokens quiet low before post :=
  take opens (opens.mayPend.stands.ahead_ne_nil present) known

/-- Where nothing was found out of place, it does not matter whether there is a token left. -/
theorem skip (starts : Starts tokens low before) :
    Parser.advance.Adds tokens quiet low before fun _ _ => True :=
  ⟨fun _ _ => ⟨.of_same starts.settled (Parser.advance.reaches before) rfl, trivial⟩,
    nofun⟩

theorem loop {step : α → Parser (Step α β)} (starts : Starts tokens low before)
    (invariant : α → ParseState → Prop)
    (each : ∀ state after, Starts tokens low after → Follows tokens quiet before after →
      invariant state after → (step state).Adds tokens quiet low after (Outcome invariant post))
    {state : α} (initial : invariant state before) :
    (loop step state).Adds tokens quiet low before post := by
  refine Meets.loop (fun state after => Follows tokens quiet before after ∧ invariant state after)
    (fun state after known => ?_) (fun state after known => ?_) ⟨.refl starts.settled, initial⟩
  · obtain ⟨follows, holds⟩ := known
    refine Meets.mono (each state after (starts.opens.follow follows) follows holds)
      (fun outcome last _ known => ?_) fun last _ fails => ⟨fails.1, ?_⟩
    · have total := follows.trans starts.settled.stands known.1
      cases outcome with
      | more state => exact ⟨total, known.2⟩
      | done result => exact ⟨total, known.2⟩
    · exact (follows.since.lower starts.le).trans fails.2
  · -- a loop that is given up has reported what its steps have
    have opens := (starts.opens.follow known.1).opens
    have givenUp := (exhaust opens : (Parser.exhaust : Parser β).Adds tokens quiet low after post).2 rfl
    exact ⟨givenUp.1, (known.1.since.lower starts.le).trans givenUp.2⟩

end Adds

/-- A loop whose steps go on where the current token may have been found out of place. -/
theorem Meets.recover {step : α → Parser (Step α β)} (opens : Opens tokens low before)
    (done : ParseState → Prop)
    (each : ∀ state after, Opens tokens low after → before.Reaches after →
      Since before.site before after →
      (step state).Meets after
        (Outcome (fun _ last => last.MayPend tokens ∧ Since after.site after last)
          fun _ last => done last ∧ Since after.site after last)
        fun last => last.MayPend tokens ∧ Since low after last)
    (state : α) :
    (Parser.loop step state).Meets before
      (fun _ last => before.Reaches last ∧ done last ∧ Since before.site before last)
      fun last => last.MayPend tokens ∧ Since low before last := by
  refine loop (fun _ after => before.Reaches after ∧ after.MayPend tokens ∧
    Since before.site before after) ?_ ?_ ⟨.refl _, opens.mayPend, .refl _ _⟩
  · intro state after known
    obtain ⟨reaches, mayPend, since⟩ := known
    have further := opens.mayPend.stands.site_le reaches
    refine mono (each state after ⟨mayPend, Nat.le_trans opens.le further⟩ reaches since)
      (fun outcome last more known => ?_) fun last _ fails =>
        ⟨fails.1, (since.lower opens.le).trans fails.2⟩
    cases outcome with
    | more state => exact ⟨reaches.trans more, known.1, since.trans (known.2.lower further)⟩
    | done result => exact ⟨reaches.trans more, known.1, since.trans (known.2.lower further)⟩
  · intro state after known
    obtain ⟨reaches, mayPend, since⟩ := known
    have further := opens.mayPend.stands.site_le reaches
    -- giving the loop up reports nothing
    have givenUp : (exhaust : Parser β).Adds tokens False low after fun _ _ => True :=
      .exhaust ⟨mayPend, Nat.le_trans opens.le further⟩
    exact ⟨(givenUp.2 rfl).1, since.lower opens.le⟩

section Tokens

/-- A token of some kind is taken. Where none is there, nothing may have been found out of place. -/
theorem adds_consume {name : TokenName} (opens : Opens tokens low before)
    (settled : before.current.token.name ≠ name → before.IsSettled tokens)
    (present : name ≠ .endOfInput) :
    (consume name).Adds tokens quiet low before fun token after =>
      token = before.current.token ∧ Passes tokens before after := by
  refine Adds.token (.ite (fun same => ?_) fun other => ?_)
  · have isPresent : before.current.token.lexeme ≠ .endOfInput := by
      intro last
      exact present (same.symm.trans (congrArg Lexeme.name last))
    exact Adds.advance opens isPresent fun after starts passes => .pure starts ⟨rfl, passes⟩
  · exact .failExpecting ⟨settled other, opens.le⟩ _ _

variable (starts : Starts tokens low before)
include starts

theorem adds_consumeIdentifier :
    consumeIdentifier.Adds tokens quiet low before fun binder after =>
      binder.span = before.current.token.span ∧ Passes tokens before after := by
  refine Adds.token ?_
  split
  next name same =>
    exact Adds.advance starts.opens (by simp [same]) fun after starts passes =>
      .pure starts ⟨rfl, passes⟩
  next => exact .failExpecting starts _ _

theorem adds_consumeIf (name : TokenName) :
    (consumeIf name).Adds tokens quiet low before fun _ _ => True := by
  refine Adds.token (.ite (fun same => ?_) fun _ => .pure starts trivial)
  exact (Adds.skip starts).bind starts.opens fun _ after starts _ _ => .pure starts trivial

theorem adds_led (mark : TokenName) {parser : Parser α}
    (adds : ∀ after, Starts tokens low after →
      parser.Adds tokens quiet low after fun _ _ => True) :
    (led mark parser).Adds tokens quiet low before fun _ _ => True := by
  refine (adds_consumeIf starts mark).bind starts.opens fun found after starts _ _ => ?_
  refine Adds.ite (fun _ => ?_) fun _ => .pure starts trivial
  exact (adds after starts).bind starts.opens fun _ last starts _ _ => .pure starts trivial

/-- The elements of a list, the opening delimiter of which has been taken. What is known of an element
stays known as tokens are taken. -/
theorem adds_commaSeparated {element : Parser α} {opening : Token} {closing : TokenName}
    (pointed : low ≤ opening.span.start)
    (spares : before.Spares opening.span.start "unclosed delimiter")
    {known : α → ParseState → Prop}
    (stable : ∀ found after last, after.site ≤ last.site → known found after → known found last)
    (adds : ∀ after, Starts tokens after.site after → Follows tokens quiet before after →
      element.Adds tokens quiet after.site after known) :
    (commaSeparated opening closing element).Adds tokens quiet low before fun listed after =>
      ∀ found ∈ listed.1, known found after := by
  have stands := starts.settled.stands
  refine Adds.loop starts (fun listed after => ∀ found ∈ listed, known found after) ?_ (by simp)
  intro listed state starts follows holds
  have keep {after : ParseState} (follows : Follows tokens quiet state after) :
      ∀ found ∈ listed, known found after := fun found member =>
    stable found state after (starts.settled.stands.site_le follows.reaches) (holds found member)
  -- the list is closed, the input ends, a comma is out of place, or an element follows
  refine .token (.ite (fun _ => ?_) fun _ => .ite (fun _ => ?_) fun _ => .ite (fun _ => ?_)
    fun _ => ?_)
  · exact (Adds.skip starts).bind starts.opens fun _ after starts follows _ =>
      .pure starts (keep follows)
  · exact .failUnclosed starts.opens pointed (follows.spares stands spares)
  · exact .failPending starts rfl (by simp [ParseError.IsPending, ParseError.label,
      ParseError.pendingLabels]) nofun
  · refine ((adds state starts.here follows).lower starts.le).bind starts.opens
      fun found middle middleStarts first isKnown => ?_
    refine (adds_consumeIf middleStarts _).bind middleStarts.opens
      fun isComma after afterStarts second _ => ?_
    have total := first.trans starts.settled.stands second
    have more : ∀ other ∈ listed ++ [found], known other after := by
      intro other member
      rcases List.mem_append.mp member with old | new
      · exact keep total other old
      · have le := middleStarts.settled.stands.site_le second.reaches
        exact List.mem_singleton.mp new ▸ stable found middle after le isKnown
    -- behind an element stands a comma or the end of the list
    refine .ite (fun _ => .pure afterStarts more) fun _ => .token ?_
    refine .ite (fun _ => .pure afterStarts more) fun _ => .ite (fun _ => ?_) fun _ => ?_
    · exact .failUnclosed afterStarts.opens pointed
        ((follows.trans stands total).spares stands spares)
    · exact .failExpecting afterStarts _ _

end Tokens

end Parser

end Cadence
