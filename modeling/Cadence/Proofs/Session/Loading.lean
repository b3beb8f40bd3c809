import Cadence.Proofs.Session.Reports

/-!
# What is known of loaded files

Loading tells everything that is wrong with the files it reads, and it parses the files whose tokens
are in order and no others.
-/
namespace Cadence

open Source (File FileName Path)

namespace Loading

/-- What was said while files were loaded, at every point. -/
structure Tells (loading : Loading) : Prop where
  /-- No names are resolved yet. -/
  early : ∀ diagnostic, .report diagnostic ∈ loading.events → ¬ diagnostic.IsOfResolution
  /-- What is wrong with the tokens of a file was said. -/
  lexed : ∀ file ∈ loading.map.files, ∀ diagnostic ∈ (Lexed.ofFile file).diagnostics,
    .report diagnostic ∈ loading.events
  /-- What is wrong with the trees of a file was said. -/
  parsed : ∀ parsed ∈ loading.files, ∀ diagnostic ∈ (Parsed.ofFile parsed.file).diagnostics,
    .report diagnostic ∈ loading.events

/-- The files with trees are those whose tokens are in order, unless nothing is parsed. -/
def Parses (options : SessionOptions) (loading : Loading) : Prop :=
  loading.files =
    if options.haltsAfter .lexing then []
    else (loading.map.files.filter fun file => !(Lexed.ofFile file).tainted).map fun file =>
      ⟨file, (Parsed.ofFile file).nodes⟩

variable {options : SessionOptions} {loading : Loading}

theorem tells_start : start.Tells := by
  constructor <;> simp [start, Source.Map.empty]

theorem parses_start : start.Parses options := by
  simp [Parses, start, Source.Map.empty]

/-- Saying something else is no loss. -/
theorem Tells.say (tells : loading.Tells) {events : List Event}
    (early : ∀ diagnostic, .report diagnostic ∈ events → ¬ diagnostic.IsOfResolution) :
    (loading.say events).Tells where
  early diagnostic member := by
    rcases List.mem_append.mp member with old | new
    · exact tells.early diagnostic old
    · exact early diagnostic new
  lexed file member diagnostic present :=
    List.mem_append_left _ (tells.lexed file member diagnostic present)
  parsed file member diagnostic present :=
    List.mem_append_left _ (tells.parsed file member diagnostic present)

theorem Tells.ask (tells : loading.Tells) (path : Path) : (loading.ask path).Tells := by
  have same : Tells { loading with asked := path :: loading.asked } :=
    ⟨tells.early, tells.lexed, tells.parsed⟩
  refine same.say fun diagnostic member => ?_
  obtain rfl : diagnostic = .info _ := Event.report.inj (List.mem_singleton.mp member)
  simp [Diagnostic.IsOfResolution, Diagnostic.info]

theorem standing_failed (request : FileRequest) (path : Path) (failure : ReadFailure) :
    (failed request path failure).standing = (.error, some .e030) := by
  cases known : request.origin <;> simp [failed, known]

theorem isError_failed (request : FileRequest) (path : Path) (failure : ReadFailure) :
    (failed request path failure).severity.isError = true := by
  rw [(Prod.mk.inj (standing_failed request path failure)).1]
  rfl

theorem not_isOfResolution_failed (request : FileRequest) (path : Path) (failure : ReadFailure) :
    ¬ (failed request path failure).IsOfResolution := by
  rw [Diagnostic.IsOfResolution, (Prod.mk.inj (standing_failed request path failure)).2]
  decide

/-- The errors of a pass are said, possibly followed by a listing that reports nothing. -/
theorem not_isOfResolution_of_mem {α : Type} {diagnosticOf : α → Diagnostic}
    (early : ∀ error, (diagnosticOf error).IsEarlyError) {errors : List α} {listing : List Event}
    (silent : ∀ diagnostic, .report diagnostic ∉ listing) {diagnostic : Diagnostic}
    (member : .report diagnostic ∈ (errors.map diagnosticOf).map .report ++ listing) :
    ¬ diagnostic.IsOfResolution := by
  rcases List.mem_append.mp member with said | listed
  · obtain ⟨_, present, same⟩ := List.mem_map.mp said
    obtain ⟨error, _, rfl⟩ := List.mem_map.mp present
    rw [← Event.report.inj same]
    exact (early error).2
  · exact absurd listed (silent diagnostic)

theorem Tells.readTokens (tells : loading.Tells) (name : FileName) (text : List Char) :
    (loading.readTokens options name text).Tells where
  early diagnostic member := by
    rcases List.mem_append.mp member with old | new
    · exact tells.early diagnostic old
    · refine not_isOfResolution_of_mem LexError.isEarlyError_diagnostic (fun diagnostic => ?_) new
      split <;> simp [tokenLines]
  lexed file member diagnostic present := by
    rcases List.mem_append.mp member with old | new
    · exact List.mem_append_left _ (tells.lexed file old diagnostic present)
    · obtain rfl := List.mem_singleton.mp new
      exact List.mem_append_right _ (List.mem_append_left _ (List.mem_map_of_mem present))
  parsed file member diagnostic present :=
    List.mem_append_left _ (tells.parsed file member diagnostic present)

theorem Tells.readTrees (tells : loading.Tells) (file : File) :
    (loading.readTrees options file (Parsed.ofFile file)).Tells where
  early diagnostic member := by
    rcases List.mem_append.mp member with old | new
    · exact tells.early diagnostic old
    · refine not_isOfResolution_of_mem ParseError.isEarlyError_diagnostic (fun diagnostic => ?_) new
      split <;> simp
  lexed file member diagnostic present :=
    List.mem_append_left _ (tells.lexed file member diagnostic present)
  parsed parsed member diagnostic present := by
    rcases List.mem_append.mp member with old | new
    · exact List.mem_append_left _ (tells.parsed parsed old diagnostic present)
    · obtain rfl := List.mem_singleton.mp new
      exact List.mem_append_right _ (List.mem_append_left _ (List.mem_map_of_mem present))

theorem Tells.read (tells : loading.Tells) (path : Path) (text : List Char) :
    (loading.read options path text).1.Tells := by
  simp only [Loading.read]
  split
  · exact tells.readTokens _ text
  · exact (tells.readTokens _ text).readTrees _

theorem Parses.read (parses : loading.Parses options) (path : Path) (text : List Char) :
    (loading.read options path text).1.Parses options := by
  simp only [Loading.read]
  unfold Parses at parses ⊢
  -- the file is parsed unless the session halts in front of that or the tokens are tainted
  cases halts : options.haltsAfter .lexing with
  | true =>
    rw [halts] at parses
    simpa [Loading.readTokens, Loading.say] using parses
  | false =>
    rw [halts] at parses
    cases tainted : (Lexed.ofFile (loading.map.place (.path path) text)).tainted with
    | true => simpa [Loading.readTokens, Loading.say, Source.Map.add, tainted] using parses
    | false =>
      simpa [Loading.readTrees, Loading.readTokens, Loading.say, Source.Map.add, tainted,
        Parsed.ofFile] using parses

/-- Loading tells what it has to, whatever is asked for. -/
theorem Tells.load (tells : loading.Tells) (archive : Archive) (requests : List FileRequest) :
    (loading.load options archive requests).Tells := by
  fun_induction Loading.load options archive loading requests with
  | case1 => exact tells
  | case2 loading request rest path asked ih => exact ih tells
  | case3 loading request rest path fresh missing ih =>
    refine ih ((tells.ask path).say fun diagnostic member => ?_)
    obtain rfl := Event.report.inj (List.mem_singleton.mp member)
    exact not_isOfResolution_failed _ _ _
  | case4 loading request rest path fresh text found step ih =>
    exact ih ((tells.ask path).read path text)

theorem Parses.load (parses : loading.Parses options) (archive : Archive)
    (requests : List FileRequest) : (loading.load options archive requests).Parses options := by
  fun_induction Loading.load options archive loading requests with
  | case1 => exact parses
  | case2 loading request rest path asked ih => exact ih parses
  | case3 loading request rest path fresh missing ih => exact ih parses
  | case4 loading request rest path fresh text found step ih =>
    have asked : (loading.ask path).Parses options := parses
    exact ih (asked.read path text)

end Loading

end Cadence
