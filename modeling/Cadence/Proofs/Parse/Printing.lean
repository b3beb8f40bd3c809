import Cadence.Proofs.Parse.Integers
import Cadence.Proofs.Parse.Quiet
import Cadence.Proofs.Parse.Reporting
import Cadence.Proofs.Parse.Spelling
import Cadence.Proofs.Token.Writing

/-!
# Types print and parse back

A type is printed as one of its spellings. Nothing that is printed goes on with what is printed
behind it, so that it is read as this spelling again, and the tokens of a spelling are parsed as the
type wherever they stand. The same spelling is behind the type of a procedure, since a signature is
written in the same way in a declaration and in place of a type.
-/
namespace Cadence

open Source (File FileName)

/-- The text is read as the lexemes in front of anything that ends a word. It does not make the sign
in front of it an assignment. -/
structure Prints (text : List Char) (lexemes : List Lexeme) : Prop where
  starts : ∃ first rest, text = first :: rest ∧ first ≠ '='
  reads : ∀ behind, EndsWord behind → Lexed.Reads text behind lexemes

namespace Prints

open Lexed (Reads)

variable {text : List Char} {lexemes : List Lexeme}

theorem word {word : List Char} (isWord : IsWord word) :
    Prints word [.ofWord (String.ofList word)] := by
  refine ⟨?_, fun behind ends => .word isWord ends⟩
  have starts := isWord.starts
  cases word with
  | nil => exact starts.elim
  | cons first more =>
    refine ⟨first, more, rfl, ?_⟩
    rintro rfl
    exact absurd starts.1 (by decide +kernel)

theorem name {name : String} (isIdentifier : IsIdentifier name) :
    Prints name.toList [.identifier name] := by
  have printed := word isIdentifier.isWord
  rwa [String.ofList_toList, isIdentifier.ofWord] at printed

theorem builtin (type : BuiltinType) : Prints type.name.toList [.builtinType type] := by
  have printed := word type.isWord_name
  rwa [String.ofList_toList, type.ofWord_name] at printed

theorem pointer (printed : Prints text lexemes) :
    Prints ('*' :: text) (.operator .asterisk :: lexemes) := by
  refine ⟨⟨'*', text, rfl, by decide⟩, fun behind ends => ?_⟩
  obtain ⟨first, rest, rfl, noAssign⟩ := printed.starts
  exact .asterisk (fun next isNext => Option.some.inj isNext ▸ noAssign) (printed.reads behind ends)

/-- A type with a name in front of it. -/
theorem named {written : String} (isIdentifier : IsIdentifier written)
    (printed : Prints text lexemes) :
    Prints (written.toList ++ ':' :: ' ' :: text)
      ([.identifier written, .punctuation .colon] ++ lexemes) := by
  obtain ⟨first, rest, same, noAssign⟩ := (name isIdentifier).starts
  refine ⟨⟨first, _, by rw [same]; rfl, noAssign⟩, fun behind ends => ?_⟩
  have separated : Reads (':' :: ' ' :: text) behind (.punctuation .colon :: lexemes) :=
    .mark rfl (.blank (printed.reads behind ends))
  have ended : EndsWord (':' :: ' ' :: text ++ behind) := endsWord_of_singleMark rfl _
  exact ((name isIdentifier).reads _ ended).append separated

/-- A list in brackets, and what stands behind it. -/
theorem bracketed {listed result : List Char} {inside behind : List Lexeme}
    (inner : ∀ after, EndsWord after → Reads listed after inside)
    (outer : ∀ after, EndsWord after → Reads result after behind) :
    Prints ('(' :: (listed ++ ')' :: result)) (.punctuation .openingRoundBracket ::
      (inside ++ .punctuation .closingRoundBracket :: behind)) := by
  refine ⟨⟨'(', _, rfl, by decide⟩, fun after ends => .mark rfl ?_⟩
  exact .append (inner _ (endsWord_of_singleMark rfl _)) (.mark rfl (outer after ends))

end Prints

/-- A parameter as it is printed. -/
def Ty.displayParameter (parameter : Option String × Ty) : String :=
  (parameter.1.map (· ++ ": ")).getD "" ++ parameter.2.display

theorem Ty.displayParameters_eq (parameters : List (Option String × Ty)) :
    Ty.displayParameters parameters = parameters.map Ty.displayParameter := by
  induction parameters with
  | nil => rfl
  | cons first rest ih => rw [displayParameters, ih]; rfl

theorem IsIdentifier.parameterName?_eq {name : String} (isIdentifier : IsIdentifier name) :
    Ty.parameterName? name = some name := by
  apply if_neg
  rintro rfl
  cases isIdentifier.ofWord

/-- Of a spelling with proper names, a parameter is printed as one. -/
theorem ParameterSpelling.exists_printed {lexemes : List Lexeme} {parameter : Option String × Ty}
    (spelling : ParameterSpelling TypeSpelling lexemes parameter)
    (names : ∀ name, .identifier name ∈ lexemes → IsIdentifier name)
    (types : ∀ own, TypeSpelling own parameter.2 →
      (∀ name, .identifier name ∈ own → IsIdentifier name) →
      ∃ printed, TypeSpelling printed parameter.2 ∧ Prints parameter.2.display.toList printed) :
    ∃ printed, ParameterSpelling TypeSpelling printed parameter ∧
      Prints (Ty.displayParameter parameter).toList printed := by
  cases spelling with
  | @intro front own name type named typed =>
    obtain ⟨printed, again, prints⟩ :=
      types own typed fun name member => names name (List.mem_append_right _ member)
    -- the name is printed if it is one, and no name is printed if there was none or a wildcard
    have unnamed : ∃ printed, ParameterSpelling TypeSpelling printed (none, type) ∧
        Prints (Ty.displayParameter (none, type)).toList printed := by
      refine ⟨[] ++ printed, .intro .absent again, ?_⟩
      simpa [Ty.displayParameter] using prints
    cases named with
    | absent => exact unnamed
    | @present lexeme name isName =>
      unfold Lexeme.parameterName? at isName
      split at isName
      next written =>
        obtain rfl := Option.some.inj isName
        have known : IsIdentifier written := names written (by simp)
        have spelled : NameSpelling [.identifier written, .punctuation .colon]
            (Ty.parameterName? written) := .present rfl
        refine ⟨_, .intro spelled again, ?_⟩
        rw [known.parameterName?_eq]
        simpa [Ty.displayParameter, String.toList_append] using prints.named known
      next =>
        obtain rfl := Option.some.inj isName
        exact unnamed
      next => cases isName

/-- What is printed between the brackets. -/
def Ty.listing (parameters : List (Option String × Ty)) (isVariadic : Bool) : List (List Char) :=
  parameters.map (fun parameter => (Ty.displayParameter parameter).toList) ++
    if isVariadic then ["...".toList] else []

open Lexed (Reads) in
theorem exists_printed_parameters {parameters : List (Option String × Ty)} (isVariadic : Bool)
    (printed : ∀ parameter ∈ parameters, ∃ lexemes,
      ParameterSpelling TypeSpelling lexemes parameter ∧
        Prints (Ty.displayParameter parameter).toList lexemes) :
    ∃ lexemes, ParametersSpelling TypeSpelling lexemes parameters isVariadic ∧
      ∀ behind, EndsWord behind →
        Reads ([',', ' '].intercalate (Ty.listing parameters isVariadic)) behind lexemes := by
  induction parameters with
  | nil =>
    cases isVariadic with
    | false => exact ⟨[], .none, fun behind _ => .nil behind⟩
    | true => exact ⟨_, .varargs, fun behind _ => .varargs behind⟩
  | cons first rest ih =>
    obtain ⟨own, spelling, prints⟩ := printed first List.mem_cons_self
    obtain ⟨lexemes, others, reads⟩ := ih fun parameter member =>
      printed parameter (List.mem_cons_of_mem _ member)
    -- a comma is printed only if something is printed behind it
    by_cases last : Ty.listing rest isVariadic = []
    · obtain ⟨none, unmarked⟩ := List.append_eq_nil_iff.mp last
      obtain rfl := List.map_eq_nil_iff.mp none
      cases isVariadic with
      | true => cases unmarked
      | false =>
        refine ⟨own, .last spelling, fun behind ends => ?_⟩
        simpa [Ty.listing] using prints.reads behind ends
    · refine ⟨_, .more spelling others, fun behind ends => ?_⟩
      have split : [',', ' '].intercalate (Ty.listing (first :: rest) isVariadic) =
          (Ty.displayParameter first).toList ++
            ',' :: ' ' :: [',', ' '].intercalate (Ty.listing rest isVariadic) := by
        refine (List.intercalate_cons_of_ne_nil last).trans ?_
        simp
      rw [split]
      exact .append (prints.reads _ (endsWord_of_singleMark rfl _))
        (.mark rfl (.blank (reads behind ends)))

/-- The elements of a spelling are spelled by some of its lexemes. -/
theorem ParametersSpelling.exists_of_mem {lexemes : List Lexeme}
    {parameters : List (Option String × Ty)} {isVariadic : Bool}
    (spelling : ParametersSpelling TypeSpelling lexemes parameters isVariadic) :
    ∀ parameter ∈ parameters, ∃ own ⊆ lexemes, ParameterSpelling TypeSpelling own parameter := by
  induction spelling with
  | none | varargs | varargsComma => simp
  | last first => simpa using ⟨_, List.Subset.refl _, first⟩
  | @more own behind _ _ _ first _ ih =>
    refine List.forall_mem_cons.mpr ⟨⟨own, List.subset_append_left _ _, first⟩, ?_⟩
    intro parameter member
    obtain ⟨inner, inside, other⟩ := ih parameter member
    exact ⟨inner, fun _ found => List.mem_append_right _ (List.mem_cons_of_mem _ (inside found)), other⟩

/-- The result behind an arrow, or nothing. -/
theorem exists_printed_result {result : Ty}
    (printed : result.isVoid = false → ∃ lexemes, TypeSpelling lexemes result ∧
      Prints result.display.toList lexemes) :
    ∃ lexemes, ResultSpelling TypeSpelling lexemes result ∧ ∀ behind, EndsWord behind →
      Lexed.Reads (if result.isVoid then "" else " -> " ++ result.display).toList behind lexemes := by
  cases isVoid : result.isVoid with
  | true =>
    obtain rfl : result = .void := by
      unfold Ty.isVoid at isVoid
      split at isVoid
      · rfl
      · cases isVoid
    exact ⟨[], .void, fun behind _ => .nil behind⟩
  | false =>
    obtain ⟨lexemes, spelling, prints⟩ := printed isVoid
    refine ⟨_, .arrow spelling, fun behind ends => ?_⟩
    have arrow := Lexed.Reads.blank (.arrow (.blank (prints.reads behind ends)))
    simpa [String.toList_append] using arrow

theorem Ty.toList_display_procedure (parameters : List (Option String × Ty)) (isVariadic : Bool)
    (result : Ty) :
    (Ty.procedure parameters isVariadic result).display.toList =
      '(' :: ([',', ' '].intercalate (Ty.listing parameters isVariadic) ++
        ')' :: (if result.isVoid then "" else " -> " ++ result.display).toList) := by
  rw [display, displayParameters_eq]
  cases isVariadic <;>
    simp [String.toList_append, String.toList_intercalate, listing, Function.comp_def]

/-- A type that is spelled with proper names is printed as a spelling of it, by induction on the
type. -/
theorem TypeSpelling.exists_printed {type : Ty} {lexemes : List Lexeme}
    (spelling : TypeSpelling lexemes type)
    (names : ∀ name, .identifier name ∈ lexemes → IsIdentifier name) :
    ∃ printed, TypeSpelling printed type ∧ Prints type.display.toList printed := by
  induction type using Ty.byParts generalizing lexemes with
  | builtin type => exact ⟨_, .builtin type, .builtin type⟩
  | pointer target ih =>
    cases spelling with
    | pointer inner =>
      obtain ⟨printed, again, prints⟩ :=
        ih inner fun name member => names name (List.mem_cons_of_mem _ member)
      refine ⟨_, .pointer again, ?_⟩
      simpa [Ty.display, String.toList_append] using prints.pointer
  | procedure parameters isVariadic result ihParameters ihResult =>
    cases spelling with
    | @procedure inside behind _ _ _ listed ending =>
      -- the lexemes of the parts are among those of the type, and so their names are proper
      have inner : ∀ name, .identifier name ∈ inside → IsIdentifier name :=
        fun name member => names name (by simp [member])
      have outer : ∀ name, .identifier name ∈ behind → IsIdentifier name :=
        fun name member => names name (by simp [member])
      have parts : ∀ parameter ∈ parameters, ∃ printed,
          ParameterSpelling TypeSpelling printed parameter ∧
            Prints (Ty.displayParameter parameter).toList printed := by
        intro parameter member
        obtain ⟨own, within, spelled⟩ := listed.exists_of_mem parameter member
        exact spelled.exists_printed (fun name found => inner name (within found))
          fun _ typed known => ihParameters parameter member typed known
      have last : result.isVoid = false → ∃ printed, TypeSpelling printed result ∧
          Prints result.display.toList printed := by
        intro notVoid
        cases ending with
        | void => cases notVoid
        | arrow typed =>
          exact ihResult typed fun name member => outer name (List.mem_cons_of_mem _ member)
      obtain ⟨printed, again, reads⟩ := exists_printed_parameters isVariadic parts
      obtain ⟨arrow, againLast, readsLast⟩ := exists_printed_result last
      refine ⟨_, .procedure again againLast, ?_⟩
      rw [Ty.toList_display_procedure]
      exact .bracketed reads readsLast
  | struct name fields => cases spelling
  | named path symbol =>
    cases spelling
    exact ⟨_, .named path, .name (names path.value List.mem_cons_self)⟩

/-- Wherever tokens with the lexemes are ahead and nothing follows that would belong to a type, they
are parsed as the type: nothing is reported, and all of them are taken. -/
def IsParsedAs (lexemes : List Lexeme) (type : Ty) : Prop :=
  ∀ (state : ParseState) (own rest : List PlacedToken), state.IsEnded → state.ahead = own ++ rest →
    lexemesOf own = lexemes → EndsType rest →
    ∃ annotated, Parser.type.run state = (some annotated, { state with ahead := rest }) ∧
      type.Alike .anywhere annotated.value

/-- The tokens of a spelling are parsed as the type that they spell. -/
theorem TypeSpelling.isParsedAs {lexemes : List Lexeme} {type : Ty}
    (spelling : TypeSpelling lexemes type) : IsParsedAs lexemes type := by
  intro state own rest ended ahead same ends
  obtain ⟨found, phrase, alike⟩ := spelling.derives own rest same ends
  have accepts := (Parser.recognizes_type ended _ _).mpr phrase
  rw [← ahead] at accepts
  exact ⟨found, Parser.quiet_type.run_of_accepts accepts, alike⟩

/-- What the parser for types takes spells the type that it yields. -/
theorem Parser.spelled_of_run {before after : ParseState} {annotated : Annotation}
    (ended : before.IsEnded) (run : Parser.type.run before = (some annotated, after)) :
    Spelled TypeSpelling before.ahead after.ahead annotated.value :=
  ((recognizes_type ended _ _).mp (quiet_type.accepts run)).spelled

/-- The file is read and parsed as the type, up to the places of names. -/
structure Ty.IsReadFrom (type : Ty) (file : File) : Prop where
  noErrors : (Lexed.ofFile file).errors = []
  parsed : ∃ annotated after,
    Parser.type.run (Parsed.start file (Lexed.ofFile file).tokens) = (some annotated, after) ∧
      after.errors = [] ∧ after.ahead = [] ∧ type.Alike .anywhere annotated.value
  anywhere : IsParsedAs (lexemesOf (Parsed.inputOf file)) type

/-- The lexemes that a file is parsed from are those that are read, without the end of the input. -/
theorem lexemesOf_inputOf (file : File) : lexemesOf (Parsed.inputOf file) =
    ((Lexed.ofFile file).tokens.map Token.lexeme).dropLast := by
  have tokens := map_token_placeTokens file (Lexed.ofFile file).tokens
  calc lexemesOf (Parsed.inputOf file)
      = ((placeTokens file (Lexed.ofFile file).tokens).dropLast.map PlacedToken.token).map
          Token.lexeme := List.map_map.symm
    _ = ((Lexed.ofFile file).tokens.map Token.lexeme).dropLast := by
      rw [List.map_dropLast, tokens, List.map_dropLast]

/-- A file that is printed as the lexemes is read as them. -/
theorem Prints.ofFile {file : File} {lexemes : List Lexeme}
    (printed : Prints file.content lexemes) :
    (Lexed.ofFile file).errors = [] ∧ lexemesOf (Parsed.inputOf file) = lexemes := by
  have reads := printed.reads [] (by simp [EndsWord])
  have ending (start : Nat) :
      Lexed.ofText start [] = ⟨[⟨.endOfInput, .emptyAt start, ""⟩], [], false⟩ := by
    rw [Lexed.ofText]
  have errors := reads.errors file.start
  have tokens := reads.tokens file.start
  rw [List.append_nil, ending] at errors tokens
  refine ⟨errors, ?_⟩
  rw [lexemesOf_inputOf]
  simp [Lexed.ofFile, tokens]

/-- What is printed as a spelling of a type is read and parsed as the type. -/
theorem TypeSpelling.isReadFrom {file : File} {type : Ty} {lexemes : List Lexeme}
    (spelling : TypeSpelling lexemes type) (printed : Prints file.content lexemes) :
    type.IsReadFrom file := by
  obtain ⟨noErrors, same⟩ := printed.ofFile
  refine ⟨noErrors, ?_, same ▸ spelling.isParsedAs⟩
  obtain ⟨finish, started, ended, -⟩ := Parsed.exists_start file
  obtain ⟨annotated, run, alike⟩ := spelling.isParsedAs (.fresh finish (Parsed.inputOf file))
    (Parsed.inputOf file) [] ended (List.append_nil _).symm same endsType_nil
  exact ⟨annotated, _, started ▸ run, rfl, rfl, alike⟩

/-- The parser for types yields types that are read from what they are printed as. -/
theorem Parser.isReadFrom_display {file : File} {before after : ParseState} {annotated : Annotation}
    (ended : before.IsEnded)
    (tokens : ∀ placed ∈ before.ahead, placed.token ∈ (Lexed.ofFile file).tokens)
    (run : Parser.type.run before = (some annotated, after)) (name : FileName) (start : Nat) :
    annotated.value.IsReadFrom ⟨name, annotated.value.display.toList, start⟩ := by
  obtain ⟨own, split, spelling⟩ := spelled_of_run ended run
  -- names are printed as they were found in the file
  have names : ∀ name, .identifier name ∈ lexemesOf own → IsIdentifier name := by
    intro name member
    obtain ⟨placed, isOwn, isName⟩ := List.mem_map.mp member
    exact Lexed.isIdentifier_of_mem (tokens placed (split ▸ List.mem_append_left _ isOwn)) isName
  obtain ⟨printed, again, prints⟩ := spelling.exists_printed names
  exact again.isReadFrom prints

/-- The signature of a procedure is made of the given tokens. In front of them stand its keyword and
its name, if it has one. -/
def ProcedureHead.IsDeclaredWith (head : ProcedureHead) (isExternal : Bool) (before : ParseState)
    (own : List PlacedToken) : Prop :=
  ∃ front rest signature, before.ahead = front ++ (own ++ rest) ∧ front.length ≤ 2 ∧
    Parser.signature.Accepts before.finish (own ++ rest) rest signature ∧
    head = signature.head head.binder isExternal

namespace Parser

/-- A quiet parser that succeeds accepts what it takes. -/
theorem Quiet.meets {α : Type} {parser : Parser α} (quiet : parser.Quiet) (before : ParseState) :
    parser.Meets before
      (fun found after => parser.Accepts before.finish before.ahead after.ahead found)
      fun _ => True :=
  ⟨fun _ same => quiet.accepts (Prod.ext same rfl), fun _ => trivial⟩

theorem meets_fail {α : Type} {error : ParseError} {before : ParseState}
    {post : α → ParseState → Prop} : (fail error : Parser α).Meets before post fun _ => True :=
  ⟨nofun, fun _ => trivial⟩

/-- The name of a procedure is at most one token. -/
theorem meets_procedureName (keyword : Token) (before : ParseState) :
    (procedureName keyword).Meets before
      (fun _ after => ∃ named, before.ahead = named ++ after.ahead ∧ named.length ≤ 1)
      fun _ => True := by
  have reported (error : ParseError) (state : ParseState) : (report error).Meets state
      (fun _ after => after.ahead = state.ahead) fun _ => True := ⟨fun _ _ => rfl, nofun⟩
  have taken (after : ParseState) (same : after.ahead = before.ahead) :
      ∃ named, before.ahead = named ++ after.skip.ahead ∧ named.length ≤ 1 := by
    refine ⟨before.ahead.take 1, ?_, List.length_take_le 1 _⟩
    rw [ParseState.skip, same]
    cases before.ahead <;> rfl
  refine Meets.token ?_
  -- a name, a sign, nothing in front of the brackets, or one token that cannot be a name
  split
  · exact Meets.advance (Meets.pure (taken before rfl))
  · exact Meets.advance (Meets.pure (taken before rfl))
  · exact (reported _ before).bind fun _ after _ same => Meets.pure ⟨[], same.symm, Nat.zero_le 1⟩
  · refine Meets.look (Meets.ite (fun _ => ?_) fun _ => meets_fail)
    exact (reported _ before).bind fun _ after _ same =>
      Meets.advance (Meets.pure (taken after same))

/-- A procedure is declared with tokens that spell its type. -/
theorem meets_procedure (inner : Inner) (external : Option Token) {before : ParseState}
    (ended : before.IsEnded) : (procedure inner external).Meets before
      (fun node _ => ∃ span head body own, node = .procedure span head body ∧
        head.IsDeclaredWith external.isSome before own ∧ TypeSpelling (lexemesOf own) head.type)
      fun _ => True := by
  refine ((Quiet.consume _).meets before).bind fun keyword middle first accepted => ?_
  obtain ⟨placed, isAhead, -, -⟩ := (accepts_consume ended (by simp)).mp accepted
  refine (meets_procedureName keyword middle).bind fun binder later second ⟨named, split, short⟩ => ?_
  refine Meets.token (Meets.ite (fun _ => meets_fail) fun _ => ?_)
  refine (quiet_signature.meets later).bind fun signature last _ accepts => ?_
  have reaches := first.trans second
  obtain ⟨own, whole, spelling⟩ :=
    ((recognizes_signature (ended.of_reaches reaches) _ _).mp accepts).spelled
  have declared :
      (signature.head binder external.isSome).IsDeclaredWith external.isSome before own := by
    rw [reaches.finish_eq, whole] at accepts
    refine ⟨placed :: named, last.ahead, signature, ?_, Nat.succ_le_succ short, accepts, rfl⟩
    rw [isAhead, split, whole]
    rfl
  apply Meets.ite
  · exact fun _ => Meets.pure ⟨_, _, none, own, rfl, declared, spelling⟩
  · intro _
    -- the body has no part in the type
    have body : (procedureBody inner keyword).Meets last (fun _ _ => True) fun _ => True :=
      ⟨fun _ _ => trivial, fun _ => trivial⟩
    exact body.bind fun body _ _ _ => Meets.pure ⟨_, _, some body, own, rfl, declared, spelling⟩

end Parser

/-- Types print and parse back. Whatever type the parser for types yields from the tokens of a file,
the text that it is printed as is read without a fault and parsed as the type again, up to the
places of names: nothing is reported, and nothing is left. The type of a procedure is, up to the same
places, what the tokens that it is declared with are parsed as where they stand for a type. -/
theorem types_print_and_parse_back :
    (∀ (file : File) (before after : ParseState) (annotated : Annotation), before.IsEnded →
      (∀ placed ∈ before.ahead, placed.token ∈ (Lexed.ofFile file).tokens) →
      Parser.type.run before = (some annotated, after) →
      ∀ name start, annotated.value.IsReadFrom ⟨name, annotated.value.display.toList, start⟩) ∧
    ∀ (inner : Inner) (external : Option Token) (before after : ParseState) (node : Node),
      before.IsEnded → (Parser.procedure inner external).run before = (some node, after) →
      ∃ span head body own, node = .procedure span head body ∧
        head.IsDeclaredWith external.isSome before own ∧ IsParsedAs (lexemesOf own) head.type := by
  constructor
  · intro file before after annotated ended tokens run name start
    exact Parser.isReadFrom_display ended tokens run name start
  · intro inner external before after node ended run
    have known := (Parser.meets_procedure inner external ended).1 node (congrArg Prod.fst run)
    obtain ⟨span, head, body, own, same, declared, spelling⟩ := known
    exact ⟨span, head, body, own, same, declared, spelling.isParsedAs⟩

/-- A type with a wildcard, which is not printed: the text is not the one that it was parsed from. -/
def nestedType : File := ⟨.anonymous, "(format: *s8, _: (T) -> *u8, ...) -> s32".toList, 1⟩

/-- A procedure with a comma behind its last parameter. -/
def nestedProcedure : File := ⟨.anonymous, "proc f((T) -> *u8, n: (),)".toList, 1⟩

theorem nested_type_prints_and_parses_back :
    (∃ annotated ∈ (Parser.type.run (Parsed.start nestedType (Lexed.ofFile nestedType).tokens)).1,
      annotated.value.IsReadFrom
        ⟨.anonymous, "(format: *s8, (T) -> *u8, ...) -> s32".toList, 1⟩) ∧
    ∃ node ∈ ((Parser.procedure (Parser.innerWithin 0) (some ⟨.keyword .external, ⟨0, 0⟩, ""⟩)).run
        (Parsed.start nestedProcedure (Lexed.ofFile nestedProcedure).tokens)).1,
      ∃ span head body own, node = .procedure span head body ∧
        head.IsDeclaredWith true
          (Parsed.start nestedProcedure (Lexed.ofFile nestedProcedure).tokens) own ∧
        IsParsedAs (lexemesOf own) head.type := by
  constructor
  · have printed : (Parser.type.run (Parsed.start nestedType (Lexed.ofFile nestedType).tokens)).1.map
        (fun annotated => annotated.value.display) =
          some "(format: *s8, (T) -> *u8, ...) -> s32" := by decide +kernel
    obtain ⟨annotated, found, same⟩ := Option.map_eq_some_iff.mp printed
    obtain ⟨finish, started, ended, -⟩ := Parsed.exists_start nestedType
    have back := types_print_and_parse_back.1 nestedType _ _ annotated
      (by rw [started]; exact ended)
      (by rw [started]; exact fun placed => Parsed.mem_tokens_of_mem_inputOf)
      (Prod.ext found rfl) .anonymous 1
    rw [same] at back
    exact ⟨annotated, found, back⟩
  · have declared : ((Parser.procedure (Parser.innerWithin 0)
        (some ⟨.keyword .external, ⟨0, 0⟩, ""⟩)).run
        (Parsed.start nestedProcedure (Lexed.ofFile nestedProcedure).tokens)).1.isSome = true := by
      decide +kernel
    obtain ⟨node, found⟩ := Option.isSome_iff_exists.mp declared
    obtain ⟨finish, started, ended, -⟩ := Parsed.exists_start nestedProcedure
    exact ⟨node, found, types_print_and_parse_back.2 _ _ _ _ node (by rw [started]; exact ended)
      (Prod.ext found rfl)⟩

end Cadence
