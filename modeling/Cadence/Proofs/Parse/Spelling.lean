import Cadence.Proofs.Parse.Correspondence
import Cadence.Proofs.Parse.Recognition
import Cadence.Proofs.Syntax.Names

/-!
# The spellings of a type

A type can be written with different tokens: parameters may have a name that nobody can use, the last
one may have a comma behind it, and a result that has no value may be left out. The spellings of
a type are sequences of lexemes, apart from where they stand and from what comes next.

A phrase takes a spelling of the type that it stands for from the front of the tokens. Conversely, the
tokens of a spelling are a phrase wherever nothing follows that would belong to the type.
-/
namespace Cadence

open Source (Span)

/-- What is the same but for where it stands. -/
def Correspondence.anywhere : Correspondence where
  tokens left right := left.lexeme = right.lexeme
  spans _ _ := True
  lexeme_eq same := same
  span _ := trivial
  through _ _ := trivial

/-- The lexemes of some tokens. -/
def lexemesOf (tokens : List PlacedToken) : List Lexeme :=
  tokens.map fun placed => placed.token.lexeme

@[simp]
theorem lexemesOf_nil : lexemesOf [] = [] := rfl

@[simp]
theorem lexemesOf_cons (first : PlacedToken) (rest : List PlacedToken) :
    lexemesOf (first :: rest) = first.token.lexeme :: lexemesOf rest := rfl

@[simp]
theorem lexemesOf_append (left right : List PlacedToken) :
    lexemesOf (left ++ right) = lexemesOf left ++ lexemesOf right :=
  List.map_append

theorem exists_of_lexemesOf_cons {tokens : List PlacedToken} {first : Lexeme} {rest : List Lexeme}
    (same : lexemesOf tokens = first :: rest) :
    ∃ head tail, tokens = head :: tail ∧ head.token.lexeme = first ∧ lexemesOf tail = rest :=
  List.map_eq_cons_iff.mp same

theorem eq_nil_of_lexemesOf {tokens : List PlacedToken} (same : lexemesOf tokens = []) :
    tokens = [] :=
  List.map_eq_nil_iff.mp same

theorem exists_of_lexemesOf_singleton {tokens : List PlacedToken} {lexeme : Lexeme}
    (same : lexemesOf tokens = [lexeme]) :
    ∃ placed, tokens = [placed] ∧ placed.token.lexeme = lexeme := by
  obtain ⟨placed, tail, rfl, isLexeme, nothing⟩ := exists_of_lexemesOf_cons same
  exact ⟨placed, congrArg (placed :: ·) (eq_nil_of_lexemesOf nothing), isLexeme⟩

theorem exists_of_lexemesOf_append {tokens : List PlacedToken} {left right : List Lexeme}
    (same : lexemesOf tokens = left ++ right) :
    ∃ front behind, tokens = front ++ behind ∧ lexemesOf front = left ∧ lexemesOf behind = right :=
  List.map_eq_append_iff.mp same

section Spellings

/-- The name of a parameter in front of its type, if one is written, and what it adds to the type of
the procedure. -/
inductive NameSpelling : List Lexeme → Option String → Prop
  | absent : NameSpelling [] none
  | present {lexeme : Lexeme} {name : String} : lexeme.parameterName? = some name →
      NameSpelling [lexeme, .punctuation .colon] (Ty.parameterName? name)

-- The spellings of the types within a type.
variable (type : List Lexeme → Ty → Prop)

inductive ParameterSpelling : List Lexeme → Option String × Ty → Prop
  | intro {front own : List Lexeme} {name : Option String} {typed : Ty} :
      NameSpelling front name → type own typed → ParameterSpelling (front ++ own) (name, typed)

/-- The parameters between the brackets, and whether they are variadic. -/
inductive ParametersSpelling : List Lexeme → List (Option String × Ty) → Bool → Prop
  | none : ParametersSpelling [] [] false
  | varargs : ParametersSpelling [.punctuation .varargs] [] true
  | varargsComma : ParametersSpelling [.punctuation .varargs, .punctuation .comma] [] true
  | last {own : List Lexeme} {parameter : Option String × Ty} :
      ParameterSpelling type own parameter → ParametersSpelling own [parameter] false
  | more {own behind : List Lexeme} {parameter : Option String × Ty}
      {rest : List (Option String × Ty)} {isVariadic : Bool} :
      ParameterSpelling type own parameter → ParametersSpelling behind rest isVariadic →
      ParametersSpelling (own ++ .punctuation .comma :: behind) (parameter :: rest) isVariadic

/-- The result behind the brackets. -/
inductive ResultSpelling : List Lexeme → Ty → Prop
  | void : ResultSpelling [] .void
  | arrow {own : List Lexeme} {result : Ty} : type own result →
      ResultSpelling (.punctuation .thinArrowRight :: own) result

/-- The lexemes spell the type. -/
inductive TypeSpelling : List Lexeme → Ty → Prop
  | builtin (type : BuiltinType) : TypeSpelling [.builtinType type] (.builtin type)
  | pointer {own : List Lexeme} {target : Ty} : TypeSpelling own target →
      TypeSpelling (.operator .asterisk :: own) (.pointer target)
  | named (path : Identifier) : TypeSpelling [.identifier path.value] (.named path none)
  | procedure {inside behind : List Lexeme} {parameters : List (Option String × Ty)}
      {isVariadic : Bool} {result : Ty} :
      ParametersSpelling TypeSpelling inside parameters isVariadic →
      ResultSpelling TypeSpelling behind result →
      TypeSpelling (.punctuation .openingRoundBracket ::
        (inside ++ .punctuation .closingRoundBracket :: behind)) (.procedure parameters isVariadic result)

end Spellings

section Taken

/-- A spelling is taken from the front of the input. -/
def Spelled {α : Type} (spells : List Lexeme → α → Prop) : Phrase α := fun input rest found =>
  ∃ own, input = own ++ rest ∧ spells (lexemesOf own) found

theorem spelled_name {input rest : List PlacedToken} {name : Option Identifier}
    (derivation : NamePhrase Lexeme.parameterName? input rest name) :
    Spelled NameSpelling input rest (name.bind fun known => Ty.parameterName? known.value) := by
  cases derivation with
  | @present first colon _ written isName isColon =>
    refine ⟨[first, colon], rfl, ?_⟩
    rw [lexemesOf_cons, lexemesOf_cons, isColon]
    exact .present isName
  | absent => exact ⟨[], rfl, .absent⟩

/-- What a parameter adds to the type of its procedure. -/
def Member.typed (declared : Member) : Option String × Ty :=
  (Ty.parameterName? declared.binder.value, declared.type.value)

/-- The lexemes of an element of a list of parameters. -/
def ElementSpelling (lexemes : List Lexeme) : Parameter → Prop
  | .member declared => ParameterSpelling TypeSpelling lexemes declared.typed
  | .varargs _ => lexemes = [.punctuation .varargs]

theorem spelled_member {input middle rest : List PlacedToken} {name : Option Identifier}
    {annotated : Annotation} (derivation : NamePhrase Lexeme.parameterName? input middle name)
    (type : Spelled TypeSpelling middle rest annotated.value) :
    Spelled ElementSpelling input rest
      (.member { binder := name.getD ⟨Ty.anonymous, annotated.span⟩, type := annotated }) := by
  obtain ⟨front, rfl, named⟩ := spelled_name derivation
  obtain ⟨own, rfl, spelling⟩ := type
  refine ⟨front ++ own, (List.append_assoc _ _ _).symm, ?_⟩
  rw [lexemesOf_append]
  -- a parameter without a name is named by what contributes no name to the type
  have same : name.bind (fun known => Ty.parameterName? known.value) =
      Ty.parameterName? (name.getD ⟨Ty.anonymous, annotated.span⟩).value := by
    cases name <;> rfl
  exact .intro (same ▸ named) spelling

/-- The elements up to the closing bracket spell the parameters that they declare. -/
def SpelledParameters : Phrase (List Parameter × Token) := fun input rest found =>
  ∃ own last, input = own ++ last :: rest ∧ last.token.lexeme = .punctuation .closingRoundBracket ∧
    ∀ members isVariadic, DeclaresMembers found.1 (members, isVariadic) →
      ParametersSpelling TypeSpelling (lexemesOf own) (members.map Member.typed) isVariadic

theorem spelledParameters_close {last : PlacedToken} (rest : List PlacedToken)
    (isLast : last.token.lexeme = .punctuation .closingRoundBracket) :
    SpelledParameters (last :: rest) rest ([], last.token) := by
  refine ⟨[], last, rfl, isLast, fun members isVariadic declares => ?_⟩
  cases declares
  exact .none

theorem spelledParameters_last {last : PlacedToken} {input rest : List PlacedToken}
    {found : Parameter} (element : Spelled ElementSpelling input (last :: rest) found)
    (isLast : last.token.lexeme = .punctuation .closingRoundBracket) :
    SpelledParameters input rest ([found], last.token) := by
  obtain ⟨own, rfl, spelling⟩ := element
  refine ⟨own, last, rfl, isLast, fun members isVariadic declares => ?_⟩
  cases declares with
  | varargs =>
    have same : lexemesOf own = [.punctuation .varargs] := spelling
    rw [same]
    exact .varargs
  | member others =>
    cases others
    exact .last spelling

theorem spelledParameters_more {comma : PlacedToken} {input middle rest : List PlacedToken}
    {found : Parameter} {others : List Parameter} {last : Token}
    (element : Spelled ElementSpelling input (comma :: middle) found)
    (isComma : comma.token.lexeme = .punctuation .comma)
    (more : SpelledParameters middle rest (others, last)) :
    SpelledParameters input rest (found :: others, last) := by
  obtain ⟨own, rfl, spelling⟩ := element
  obtain ⟨behind, closing, rfl, isLast, later⟩ := more
  refine ⟨own ++ comma :: behind, closing, by simp, isLast, fun members isVariadic declares => ?_⟩
  rw [lexemesOf_append, lexemesOf_cons, isComma]
  cases declares with
  | varargs =>
    -- no further element is there, so that the comma is the last token in the brackets
    have same : lexemesOf own = [.punctuation .varargs] := spelling
    have nothing := later [] false .none
    generalize lexemesOf behind = lexemes at nothing
    cases nothing
    rw [same]
    exact .varargsComma
  | member rest => exact .more spelling (later _ _ rest)

/-- The type of a signature is spelled by its brackets with what lies within, and its result. -/
theorem spelled_signature {opening : PlacedToken} {input middle rest : List PlacedToken}
    {parameters : List Parameter} {closing : Token} {members : List Member} {isVariadic : Bool}
    {result : Option Annotation} (span : Span)
    (isOpening : opening.token.lexeme = .punctuation .openingRoundBracket)
    (listed : SpelledParameters input middle (parameters, closing))
    (declares : DeclaresMembers parameters (members, isVariadic))
    (behind : Spelled (ResultSpelling TypeSpelling) middle rest
      ((result.map Spanned.value).getD .void)) :
    Spelled TypeSpelling (opening :: input) rest
      (Signature.type { parameters := members, isVariadic, result, span }) := by
  obtain ⟨own, last, rfl, isLast, known⟩ := listed
  obtain ⟨arrow, rfl, spelling⟩ := behind
  refine ⟨opening :: (own ++ last :: arrow), by simp, ?_⟩
  rw [lexemesOf_cons, lexemesOf_append, lexemesOf_cons, isOpening, isLast]
  exact .procedure (known members isVariadic declares) spelling

/-- A phrase takes a spelling of the type that it stands for. -/
theorem TypePhrase.spelled {input rest : List PlacedToken} {found : Annotation}
    (derivation : TypePhrase Lexeme.parameterName? input rest found) :
    Spelled TypeSpelling input rest found.value := by
  -- the phrases of types, signatures and lists depend on each other, so the recursor is applied by hand
  refine @TypePhrase.rec _ (fun input rest found _ => Spelled TypeSpelling input rest found.value)
    (fun input rest found _ => Spelled TypeSpelling input rest found.type)
    (fun input rest found _ => SpelledParameters input rest found)
    (fun input rest found _ => Spelled (ResultSpelling TypeSpelling) input rest
      ((found.map Spanned.value).getD .void))
    (fun input rest found _ => Spelled ElementSpelling input rest found)
    ?pointer ?builtin ?named ?procedure ?signature ?close ?last ?more ?present ?absent ?varargs ?member
    _ _ _ derivation
  case pointer =>
    rintro sign _ rest target isSign - ⟨own, rfl, spelling⟩
    refine ⟨sign :: own, rfl, ?_⟩
    rw [lexemesOf_cons, isSign]
    exact .pointer spelling
  case builtin =>
    intro first rest type same
    refine ⟨[first], rfl, ?_⟩
    rw [lexemesOf_cons, same]
    exact .builtin type
  case named =>
    intro first rest name same _
    refine ⟨[first], rfl, ?_⟩
    rw [lexemesOf_cons, same]
    exact .named ⟨name, first.token.span⟩
  case procedure => exact fun _ known => known
  case signature =>
    exact fun isOpening _ declares _ listed behind =>
      spelled_signature _ isOpening listed declares behind
  case close => exact fun isLast => spelledParameters_close _ (Token.name_eq_punctuation.mp isLast)
  case last =>
    exact fun _ isLast element => spelledParameters_last element (Token.name_eq_punctuation.mp isLast)
  case more => exact fun _ isComma _ element more => spelledParameters_more element isComma more
  case present =>
    rintro sign _ rest found isSign - ⟨own, rfl, spelling⟩
    refine ⟨sign :: own, rfl, ?_⟩
    rw [lexemesOf_cons, Token.name_eq_punctuation.mp isSign]
    exact .arrow spelling
  case absent => exact fun _ => ⟨[], rfl, .void⟩
  case varargs => exact fun isMark => ⟨[_], rfl, congrArg (fun lexeme => [lexeme]) isMark⟩
  case member => exact fun named _ known => spelled_member named known

theorem SignaturePhrase.spelled {input rest : List PlacedToken} {found : Signature}
    (derivation : SignaturePhrase Lexeme.parameterName? (TypePhrase Lexeme.parameterName?) input rest
      found) : Spelled TypeSpelling input rest found.type :=
  (TypePhrase.procedure derivation).spelled

end Taken

section Derived

/-- What comes next does not belong to a type. -/
structure EndsType (rest : List PlacedToken) : Prop where
  noDot : ¬ Begins (.punctuation .dot) rest
  noArrow : ¬ Begins (.punctuation .thinArrowRight) rest

@[simp]
theorem begins_nil (name : TokenName) : ¬ Begins name [] := by
  rintro ⟨first, isFirst, -⟩
  cases isFirst

@[simp]
theorem begins_cons {name : TokenName} {first : PlacedToken} {rest : List PlacedToken} :
    Begins name (first :: rest) ↔ first.token.name = name := by
  simp [Begins]

theorem endsType_nil : EndsType [] := ⟨begins_nil _, begins_nil _⟩

/-- Within brackets, a comma or the closing bracket comes next. -/
theorem endsType_cons {first : PlacedToken} {mark : Punctuation} (rest : List PlacedToken)
    (same : first.token.lexeme = .punctuation mark) (noDot : mark ≠ .dot)
    (noArrow : mark ≠ .thinArrowRight) : EndsType (first :: rest) := by
  constructor <;> simpa [same]

/-- No type is taken for a name in front of a type. -/
theorem TypeSpelling.not_beginsNamed {lexemes : List Lexeme} {type : Ty}
    (spelling : TypeSpelling lexemes type) {own rest : List PlacedToken}
    (same : lexemesOf own = lexemes) (noColon : ¬ Begins (.punctuation .colon) rest) :
    ¬ BeginsNamed Lexeme.parameterName? (own ++ rest) := by
  rintro ⟨first, colon, tail, begins, isName, isColon⟩
  cases spelling with
  | named path =>
    -- the name is the whole type, so that the colon would have to come next
    obtain ⟨head, rfl, -⟩ := exists_of_lexemesOf_singleton same
    obtain ⟨-, rfl⟩ := List.cons.inj begins
    exact noColon (begins_cons.mpr (Token.name_eq_punctuation.mpr isColon))
  | builtin | pointer | procedure =>
    obtain ⟨head, own, rfl, isHead, -⟩ := exists_of_lexemesOf_cons same
    obtain ⟨rfl, -⟩ := List.cons.inj begins
    simp [isHead, Lexeme.parameterName?] at isName

/-- Tokens with the lexemes are a phrase for the type wherever nothing of the type comes next. -/
def Derives (lexemes : List Lexeme) (type : Ty) : Prop :=
  ∀ own rest, lexemesOf own = lexemes → EndsType rest →
    ∃ found, TypePhrase Lexeme.parameterName? (own ++ rest) rest found ∧
      type.Alike .anywhere found.value

/-- The parameter that a member declares, up to the places of names. -/
def Member.Declares (declared : Member) (parameter : Option String × Ty) : Prop :=
  parameter.1 = declared.typed.1 ∧ parameter.2.Alike .anywhere declared.typed.2

theorem ParameterSpelling.exists_phrase {lexemes : List Lexeme} {parameter : Option String × Ty}
    (spelling : ParameterSpelling TypeSpelling lexemes parameter)
    (derives : ∀ own, TypeSpelling own parameter.2 → Derives own parameter.2)
    {own rest : List PlacedToken} (same : lexemesOf own = lexemes) (ends : EndsType rest)
    (noColon : ¬ Begins (.punctuation .colon) rest) :
    ∃ declared : Member, ParameterPhrase Lexeme.parameterName? (TypePhrase Lexeme.parameterName?)
      (own ++ rest) rest (.member declared) ∧ declared.Declares parameter := by
  cases spelling with
  | intro named typed =>
    obtain ⟨front, own, rfl, isFront, isType⟩ := exists_of_lexemesOf_append same
    obtain ⟨annotated, phrase, alike⟩ := derives _ typed own rest isType ends
    rw [List.append_assoc]
    cases named with
    | absent =>
      obtain rfl := eq_nil_of_lexemesOf isFront
      rw [List.nil_append]
      exact ⟨_, .member (.absent (typed.not_beginsNamed isType noColon)) phrase, rfl, alike⟩
    | present isName =>
      obtain ⟨first, tail, rfl, rfl, isTail⟩ := exists_of_lexemesOf_cons isFront
      obtain ⟨colon, rfl, isColon⟩ := exists_of_lexemesOf_singleton isTail
      exact ⟨_, .member (.present isName isColon) phrase, rfl, alike⟩

theorem ParametersSpelling.exists_phrase {lexemes : List Lexeme}
    {parameters : List (Option String × Ty)} {isVariadic : Bool}
    (spelling : ParametersSpelling TypeSpelling lexemes parameters isVariadic)
    (derives : ∀ parameter ∈ parameters, ∀ own, TypeSpelling own parameter.2 →
      Derives own parameter.2)
    {last : PlacedToken} (isLast : last.token.lexeme = .punctuation .closingRoundBracket)
    {own : List PlacedToken} (same : lexemesOf own = lexemes) (rest : List PlacedToken) :
    ∃ found members, ListPhrase (.punctuation .closingRoundBracket)
      (ParameterPhrase Lexeme.parameterName? (TypePhrase Lexeme.parameterName?))
      (own ++ last :: rest) rest (found, last.token) ∧
      DeclaresMembers found (members, isVariadic) ∧
      List.Forall₂ Member.Declares members parameters := by
  have closes : last.token.name = .punctuation .closingRoundBracket :=
    Token.name_eq_punctuation.mpr isLast
  induction spelling generalizing own with
  | none =>
    obtain rfl := eq_nil_of_lexemesOf same
    exact ⟨[], [], .close closes, .none, .nil⟩
  | varargs =>
    obtain ⟨mark, rfl, isMark⟩ := exists_of_lexemesOf_singleton same
    exact ⟨_, [], .last (.varargs isMark) closes, .varargs, .nil⟩
  | varargsComma =>
    obtain ⟨mark, own, rfl, isMark, behind⟩ := exists_of_lexemesOf_cons same
    obtain ⟨comma, rfl, isComma⟩ := exists_of_lexemesOf_singleton behind
    exact ⟨_, [], .more (.varargs isMark) isComma (.close closes), .varargs, .nil⟩
  | last parameter =>
    -- what stands behind a parameter neither goes on with its type nor makes a name of it
    have ends : EndsType (last :: rest) := endsType_cons rest isLast (by decide) (by decide)
    obtain ⟨declared, phrase, declares⟩ :=
      parameter.exists_phrase (derives _ List.mem_cons_self) same ends (by simp [isLast])
    exact ⟨_, [declared], .last phrase closes, .member .none, .cons declares .nil⟩
  | more parameter _ ih =>
    obtain ⟨front, behind, rfl, isFront, behindSame⟩ := exists_of_lexemesOf_append same
    obtain ⟨comma, behind, rfl, isComma, behindSame⟩ := exists_of_lexemesOf_cons behindSame
    rw [List.append_assoc, List.cons_append]
    have ends : EndsType (comma :: (behind ++ last :: rest)) :=
      endsType_cons _ isComma (by decide) (by decide)
    obtain ⟨declared, phrase, declares⟩ :=
      parameter.exists_phrase (derives _ List.mem_cons_self) isFront ends (by simp [isComma])
    obtain ⟨found, members, listed, others, related⟩ :=
      ih (fun other member => derives other (List.mem_cons_of_mem _ member)) behindSame
    exact ⟨_, declared :: members, .more phrase isComma listed, .member others,
      .cons declares related⟩

theorem ResultSpelling.exists_phrase {lexemes : List Lexeme} {result : Ty}
    (spelling : ResultSpelling TypeSpelling lexemes result)
    (derives : ∀ own, TypeSpelling own result → Derives own result) {own rest : List PlacedToken}
    (same : lexemesOf own = lexemes) (ends : EndsType rest) :
    ∃ found, LedPhrase (.punctuation .thinArrowRight) (TypePhrase Lexeme.parameterName?)
      (own ++ rest) rest found ∧
      result.Alike .anywhere ((found.map Spanned.value).getD .void) := by
  cases spelling with
  | void =>
    obtain rfl := eq_nil_of_lexemesOf same
    exact ⟨none, .absent ends.noArrow, .builtin .void⟩
  | arrow typed =>
    obtain ⟨sign, own, rfl, isSign, isType⟩ := exists_of_lexemesOf_cons same
    obtain ⟨found, phrase, alike⟩ := derives _ typed own rest isType ends
    exact ⟨some found, .present (Token.name_eq_punctuation.mpr isSign) phrase, alike⟩

/-- The procedure type of members is that of the parameters that they declare. -/
theorem alike_procedure {members : List Member} {parameters : List (Option String × Ty)}
    (declared : List.Forall₂ Member.Declares members parameters) (isVariadic : Bool)
    {result : Ty} {found : Option Annotation} (span : Span)
    (alike : result.Alike .anywhere ((found.map Spanned.value).getD .void)) :
    (Ty.procedure parameters isVariadic result).Alike .anywhere
      (Signature.type { parameters := members, isVariadic, result := found, span }) := by
  apply Ty.Alike.procedure
  · induction declared with
    | nil => rfl
    | cons first _ ih => exact congrArg₂ List.cons first.1 ih
  · induction declared with
    | nil => exact .nil
    | cons first _ ih => exact .cons first.2 ih
  · exact alike

/-- The tokens of a spelling are a phrase, by induction on the type. -/
theorem TypeSpelling.derives {type : Ty} {lexemes : List Lexeme}
    (spelling : TypeSpelling lexemes type) : Derives lexemes type := by
  -- the lexemes of a type split where those of its parts meet, and so do the tokens
  induction type using Ty.byParts generalizing lexemes with
  | builtin type =>
    intro own rest same _
    cases spelling
    obtain ⟨first, rfl, isType⟩ := exists_of_lexemesOf_singleton same
    exact ⟨_, .builtin isType, .builtin type⟩
  | pointer target ih =>
    intro own rest same ends
    cases spelling with
    | pointer inner =>
      obtain ⟨sign, own, rfl, isSign, isTarget⟩ := exists_of_lexemesOf_cons same
      obtain ⟨found, phrase, alike⟩ := ih inner own rest isTarget ends
      exact ⟨_, .pointer isSign phrase, .pointer alike⟩
  | procedure parameters isVariadic result ihParameters ihResult =>
    intro own rest same ends
    cases spelling with
    | procedure listed behind =>
      obtain ⟨opening, own, rfl, isOpening, same⟩ := exists_of_lexemesOf_cons same
      obtain ⟨inside, own, rfl, isInside, same⟩ := exists_of_lexemesOf_append same
      obtain ⟨last, own, rfl, isLast, isBehind⟩ := exists_of_lexemesOf_cons same
      obtain ⟨found, members, list, declares, related⟩ := listed.exists_phrase
        (fun parameter member _ typed => ihParameters parameter member typed) isLast isInside
        (own ++ rest)
      obtain ⟨arrow, led, alike⟩ :=
        behind.exists_phrase (fun _ typed => ihResult typed) isBehind ends
      rw [List.cons_append, List.append_assoc, List.cons_append]
      exact ⟨_, .procedure (.intro isOpening list declares led),
        alike_procedure related isVariadic _ alike⟩
  | struct name fields => cases spelling
  | named path symbol =>
    intro own rest same ends
    cases spelling
    obtain ⟨first, rfl, isName⟩ := exists_of_lexemesOf_singleton same
    exact ⟨_, .named isName ends.noDot, .named ⟨rfl, trivial⟩⟩

end Derived

end Cadence
