import Cadence.Proofs.Resolution.Unit
import Cadence.Proofs.Session.Demands
import Cadence.Session.Check

/-!
# Sessions fail exactly if they report errors

A session yields a unit unless it has reported an error. As long as anything is wrong with the files
themselves, names are not resolved, and a file is only parsed if its tokens are in order. Nothing that
comes up is kept back: a session says all that was said while its files were loaded, and then what is
wrong with the names in them.
-/
namespace Cadence

open Source (File Path)

/-- What halts behind parsing does not go on behind registration. -/
theorem SessionOptions.haltsAfter_registration (options : SessionOptions)
    (halts : options.haltsAfter .parsing = true) : options.haltsAfter .registration = true := by
  rw [haltsAfter] at halts ⊢
  cases known : options.haltAfter with
  | none => simp [known] at halts
  | some last => cases last <;> simp_all [Pass.rank]

theorem Event.isError_report (diagnostic : Diagnostic) :
    (Event.report diagnostic).isError = diagnostic.severity.isError := rfl

namespace Collector

theorem hasErrors_count (collector : Collector) (diagnostic : Diagnostic) :
    (collector.count diagnostic).hasErrors =
      (collector.hasErrors || diagnostic.severity.isError) := by
  unfold count
  split
  next error => simp [hasErrors, error]
  next harmless => simp [hasErrors, harmless]

theorem hasErrors_report (collector : Collector) (diagnostic : Diagnostic) :
    (collector.report diagnostic).hasErrors =
      (collector.hasErrors || diagnostic.severity.isError) := by
  rw [← hasErrors_count]
  unfold report
  extract_lets counted
  split <;> rfl

/-- A collector notices every error among some events. -/
theorem hasErrors_record (collector : Collector) (events : List Event) :
    (collector.record events).hasErrors = true ↔
      collector.hasErrors = true ∨ Checked.hasErrors events = true := by
  induction events generalizing collector with
  | nil => simp [record, reportAll, Checked.hasErrors]
  | cons event rest ih =>
    cases event with
    | write text => exact ih collector
    | report diagnostic =>
      apply (ih (collector.report diagnostic)).trans
      rw [hasErrors_report]
      simp [Checked.hasErrors, Event.isError_report, or_assoc]

end Collector

/-- The unit that is made of the files that were loaded. -/
def Loading.registered (loading : Loading) : Registered :=
  Registered.ofFiles (loading.files.map ParsedFile.nodes)

namespace Checked

/-- Something was wrong while files were loaded: an error was reported, or the tokens or the trees
of a file are tainted. -/
def FailsEarly (loading : Loading) : Prop :=
  hasErrors loading.events = true ∨ (∃ file ∈ loading.map.files, (Lexed.ofFile file).tainted = true) ∨
    ∃ parsed ∈ loading.files, (Parsed.ofFile parsed.file).tainted = true

section Loaded

variable (options : SessionOptions) (archive : Archive) (paths : List Path)

theorem tells_loaded : (loaded options archive paths).Tells := Loading.tells_start.load archive _

theorem parses_loaded : (loaded options archive paths).Parses options :=
  Loading.parses_start.load archive _

theorem exists_traverses_loaded : ∃ order, Loading.Traverses options archive .start
    (loaded options archive paths) (paths.map Path.normalize) order := by
  rw [← Loading.wanted_paths]
  exact Loading.exists_traverses options archive .start _

end Loaded

variable {options : SessionOptions} {archive : Archive} {paths : List Path}

theorem hasErrors_of_report {events : List Event} {diagnostic : Diagnostic}
    (member : .report diagnostic ∈ events) (error : diagnostic.severity.isError = true) :
    hasErrors events = true :=
  List.any_eq_true.mpr ⟨_, member, error⟩

/-- Whatever is wrong with the files is reported while they are loaded. -/
theorem hasErrors_of_failsEarly (fails : FailsEarly (loaded options archive paths)) :
    hasErrors (loaded options archive paths).events = true := by
  -- a taint goes back to an error, and loading says all that is wrong with a file
  rcases fails with reported | ⟨file, member, tainted⟩ | ⟨parsed, member, tainted⟩
  · exact reported
  · obtain ⟨diagnostic, present, error⟩ := (Lexed.tainted_iff_exists_error file).mp tainted
    exact hasErrors_of_report ((tells_loaded options archive paths).lexed file member diagnostic present) error
  · obtain ⟨diagnostic, present, error⟩ := (Parsed.tainted_iff_exists_error _ _).mp tainted
    exact hasErrors_of_report ((tells_loaded options archive paths).parsed parsed member diagnostic present) error

theorem isUnbound_loaded : ∀ nodes ∈ (loaded options archive paths).files.map ParsedFile.nodes,
    Node.AllTypesAll Ty.IsUnbound nodes := by
  intro nodes member
  obtain ⟨parsed, present, rfl⟩ := List.mem_map.mp member
  have parses : (loaded options archive paths).Parses options := parses_loaded options archive paths
  -- trees come from the parser only, which resolves nothing
  rw [parses] at present
  split at present
  · cases present
  · obtain ⟨file, _, rfl⟩ := List.mem_map.mp present
    exact isUnbound_treesOf [file] _ (List.mem_singleton_self _)

@[simp]
theorem hasErrors_append (left right : List Event) :
    hasErrors (left ++ right) = (hasErrors left || hasErrors right) :=
  List.any_append

theorem hasErrors_mono {before after : List Event} (told : before <+: after)
    (errors : hasErrors before = true) : hasErrors after = true := by
  obtain ⟨rest, rfl⟩ := told
  rw [hasErrors_append, errors, Bool.true_or]

@[simp]
theorem hasErrors_symbols (table : SymbolTable) : hasErrors (symbols options table) = false := by
  unfold symbols
  split <;> rfl

@[simp]
theorem hasErrors_info (message : String) : hasErrors [.info message] = false := rfl

theorem hasErrors_diagnostics (resolved : Resolved) :
    hasErrors (resolved.diagnostics.map .report) = !resolved.errors.isEmpty := by
  rw [Resolved.diagnostics]
  cases resolved.errors with
  | nil => rfl
  | cons first rest =>
    have error : (Event.report first.diagnostic).isError = true := by
      rw [Event.isError_report, first.severity_diagnostic]
      rfl
    simp [hasErrors, error]

section Finish

variable {map : Source.Map} {events : List Event} {passes : List Pass} {unit : Option CheckedUnit}

@[simp]
theorem hasErrors_finish :
    hasErrors (finish options map events passes unit).events = hasErrors events := by
  simp only [finish, hasErrors_append]
  split <;> simp [hasErrors, timing, Event.isError, Event.diagnostic?]

theorem prefix_finish : events <+: (finish options map events passes unit).events :=
  List.prefix_append _ _

/-- What the end of a session says is no report. -/
theorem mem_of_finish {diagnostic : Diagnostic}
    (member : .report diagnostic ∈ (finish options map events passes unit).events) :
    .report diagnostic ∈ events := by
  rcases List.mem_append.mp member with before | timing
  · exact before
  · split at timing <;> simp [Checked.timing] at timing

end Finish

/-- How a session over files that were loaded ends: with what is wrong with the files themselves, in front
of registration, in front of resolution, or behind it. How its progress is worded is left open. -/
inductive Ending (options : SessionOptions) (loading : Loading) : Checked → Prop
  | failed (passes : List Pass) : hasErrors loading.events = true →
      Ending options loading (finish options loading.map loading.events passes none)
  | parsed (passes : List Pass) : hasErrors loading.events = false →
      options.haltsAfter .parsing = true →
      Ending options loading
        (finish options loading.map loading.events passes (some ⟨loading.files, .empty⟩))
  | registered (passes : List Pass) (message : String) : hasErrors loading.events = false →
      options.haltsAfter .registration = true →
      Ending options loading
        (finish options loading.map
          (loading.events ++ [.info message] ++ symbols options loading.registered.table) passes
          (some ⟨withNodes loading.files loading.registered.files, loading.registered.table⟩))
  | resolved (passes : List Pass) (message message' : String) (resolved : Resolved) :
      hasErrors loading.events = false →
      Resolved.ofRegistered loading.registered = .ok resolved →
      Ending options loading
        (finish options loading.map
          (loading.events ++ [.info message] ++ [.info message'] ++
            resolved.diagnostics.map .report ++ symbols options resolved.table) passes
          (if resolved.errors.isEmpty then
            some ⟨withNodes loading.files resolved.files, resolved.table⟩ else none))

/-- Every session over files whose types name no symbols yet comes to an end. -/
theorem exists_ending (options : SessionOptions) {loading : Loading}
    (unbound : ∀ nodes ∈ loading.files.map ParsedFile.nodes, Node.AllTypesAll Ty.IsUnbound nodes) :
    ∃ checked, ofLoading options loading = .ok checked ∧ Ending options loading checked := by
  -- the only step that could fail is the resolution of names
  obtain ⟨resolved, resolves, _⟩ := Resolved.exists_completes_ofFiles unbound
  unfold ofLoading
  extract_lets
  split
  next failed => exact ⟨_, rfl, .failed _ failed⟩
  next passed =>
    rw [Bool.not_eq_true] at passed
    split
    next halts => exact ⟨_, rfl, .parsed _ passed halts⟩
    split
    next halts => exact ⟨_, rfl, .registered _ _ passed halts⟩
    next =>
      rw [resolves]
      exact ⟨_, rfl, .resolved _ _ _ resolved passed resolves⟩

theorem exists_ending_loaded (options : SessionOptions) (archive : Archive) (paths : List Path) :
    ∃ checked, ofPaths options archive paths = .ok checked ∧
      Ending options (loaded options archive paths) checked :=
  exists_ending options isUnbound_loaded

namespace Ending

variable {loading : Loading} {checked : Checked}

theorem map_eq (ending : Ending options loading checked) : checked.map = loading.map := by
  cases ending <;> rfl

/-- There are errors to show for it if there is no unit. -/
theorem unit_eq_none_iff (ending : Ending options loading checked) :
    checked.unit = none ↔ hasErrors checked.events = true := by
  cases ending with
  | failed _ failed =>
    rw [hasErrors_finish, failed]
    exact ⟨fun _ => rfl, fun _ => rfl⟩
  | parsed _ passed =>
    rw [hasErrors_finish, passed]
    exact ⟨nofun, nofun⟩
  | registered _ _ passed =>
    simp only [hasErrors_finish, hasErrors_append, passed, hasErrors_info, hasErrors_symbols]
    exact ⟨nofun, nofun⟩
  | resolved _ _ _ resolved passed =>
    -- there are errors exactly if resolution has found some
    simp only [hasErrors_finish, hasErrors_append, passed, hasErrors_info, hasErrors_symbols,
      hasErrors_diagnostics]
    simp [finish]

/-- A session repeats what loading said. -/
theorem told (ending : Ending options loading checked) : loading.events <+: checked.events := by
  cases ending with
  | failed | parsed => exact prefix_finish
  | registered | resolved =>
    simp only [List.append_assoc]
    exact (List.prefix_append _ _).trans prefix_finish

/-- No names are resolved as long as anything is wrong with the files. -/
theorem early (ending : Ending options loading checked) (tells : loading.Tells)
    (failed : hasErrors loading.events = true) {diagnostic : Diagnostic}
    (member : .report diagnostic ∈ checked.events) : ¬ diagnostic.IsOfResolution := by
  cases ending with
  | failed => exact tells.early diagnostic (mem_of_finish member)
  | parsed _ passed | registered _ _ passed | resolved _ _ _ _ passed =>
    -- such a session has passed all files
    rw [failed] at passed
    cases passed

/-- If nothing is wrong with the files and the session does not halt before, the names are resolved, and
what is wrong with them is said. -/
theorem exists_resolved (ending : Ending options loading checked)
    (passed : hasErrors loading.events = false) (goesOn : options.haltsAfter .registration = false) :
    ∃ resolved, Resolved.ofRegistered loading.registered = .ok resolved ∧
      ∀ diagnostic ∈ resolved.diagnostics, .report diagnostic ∈ checked.events := by
  cases ending with
  | failed _ failed =>
    rw [passed] at failed
    cases failed
  | parsed _ _ halts =>
    rw [options.haltsAfter_registration halts] at goesOn
    cases goesOn
  | registered _ _ _ halts =>
    rw [halts] at goesOn
    cases goesOn
  | resolved _ _ _ resolved _ resolves =>
    -- only the symbols are said behind the diagnostics
    refine ⟨resolved, resolves, fun diagnostic member => prefix_finish.subset ?_⟩
    exact List.mem_append_left _ (List.mem_append_right _ (List.mem_map_of_mem member))

end Ending

/-- Whatever comes up in a session is reported: that a path that is asked for leads to no text, what is
wrong with the tokens and the trees of the files, and what is wrong with names once they are resolved,
which they are unless the session halts before or something was wrong with the files. -/
structure ReportsAll (options : SessionOptions) (archive : Archive) (loading : Loading)
    (checked : Checked) : Prop where
  told : loading.events <+: checked.events
  found : ∀ path ∈ loading.asked, (archive.text? path).isSome = true →
    ∃ file ∈ loading.map.files, archive.Holds file path
  missing : ∀ path ∈ loading.asked, archive.text? path = none → ∃ request : FileRequest,
    request.path.normalize = path ∧
      .report (Loading.failed request path (archive.failure path)) ∈ checked.events
  tokens : ∀ file ∈ loading.map.files, ∀ diagnostic ∈ (Lexed.ofFile file).diagnostics,
    .report diagnostic ∈ checked.events
  trees : ∀ parsed ∈ loading.files, ∀ diagnostic ∈ (Parsed.ofFile parsed.file).diagnostics,
    .report diagnostic ∈ checked.events
  names : ¬ FailsEarly loading → options.haltsAfter .registration = false →
    ∃ resolved, Resolved.ofRegistered loading.registered = .ok resolved ∧
      ∀ diagnostic ∈ resolved.diagnostics, .report diagnostic ∈ checked.events

/-- A session over some paths reports whatever comes up. -/
theorem Ending.reportsAll {checked : Checked}
    (ending : Ending options (loaded options archive paths) checked) :
    checked.ReportsAll options archive (loaded options archive paths) := by
  have tells := tells_loaded options archive paths
  obtain ⟨order, traverses⟩ := exists_traverses_loaded options archive paths
  -- what was asked for is what the traversal has visited
  have visited : ∀ path ∈ (loaded options archive paths).asked, path ∈ order := by
    rw [traverses.asked_eq]
    simp [Loading.start]
  have told := ending.told.subset
  constructor
  case told => exact ending.told
  case found => exact fun path asked => traverses.exists_holds (visited path asked)
  case missing =>
    intro path asked nothing
    obtain ⟨request, same, reported⟩ := traverses.missing path (visited path asked) nothing
    exact ⟨request, same, told reported⟩
  case tokens => exact fun file member diagnostic present => told (tells.lexed file member diagnostic present)
  case trees => exact fun parsed member diagnostic present => told (tells.parsed parsed member diagnostic present)
  case names =>
    intro passes goesOn
    refine ending.exists_resolved ?_ goesOn
    rw [← Bool.not_eq_true]
    exact fun failed => passes (.inl failed)

/-- A session with a fresh collector fails exactly if it reports an error, and it reports whatever comes up.
The tokens and the trees of each file are tainted exactly if an error is reported for them. If anything
is wrong with the files, the session fails and names are not resolved, and the files that are parsed are
those whose tokens are not tainted, unless the session is to halt in front of that. -/
theorem session_fails_iff_reports (options : SessionOptions) (archive : Archive)
    (paths : List Path) :
    ∃ checked, ofPaths options archive paths = .ok checked ∧
      checked.map = (loaded options archive paths).map ∧
      (∀ path ∈ paths, path.normalize ∈ (loaded options archive paths).asked) ∧
      checked.ReportsAll options archive (loaded options archive paths) ∧
      (∀ verbose, checked.unit = none ↔
        (Collector.record { verbose } checked.events).hasErrors = true) ∧
      (∀ file ∈ checked.map.files,
        ((Lexed.ofFile file).tainted = true ↔
          ∃ diagnostic ∈ (Lexed.ofFile file).diagnostics, diagnostic.severity.isError = true) ∧
        ((Parsed.ofFile file).tainted = true ↔
          ∃ diagnostic ∈ (Parsed.ofFile file).diagnostics, diagnostic.severity.isError = true)) ∧
      (FailsEarly (loaded options archive paths) → checked.unit = none ∧
        ∀ diagnostic, .report diagnostic ∈ checked.events → ¬ diagnostic.IsOfResolution) ∧
      (loaded options archive paths).files =
        if options.haltsAfter .lexing then []
        else (checked.map.files.filter fun file => !(Lexed.ofFile file).tainted).map fun file =>
          ⟨file, (Parsed.ofFile file).nodes⟩ := by
  obtain ⟨checked, run, ending⟩ := exists_ending_loaded options archive paths
  obtain ⟨order, traverses⟩ := exists_traverses_loaded options archive paths
  refine ⟨checked, run, ending.map_eq, fun path given => ?_, ending.reportsAll, fun verbose => ?_,
    fun file _ => ?_, fun fails => ?_, ?_⟩
  · -- the paths that are given are where the traversal starts
    rw [traverses.asked_eq, Loading.start, List.append_nil, List.mem_reverse]
    exact (traverses.visits.mem_iff _).mpr ⟨_, List.mem_map_of_mem given, .refl⟩
  · rw [Collector.hasErrors_record, ending.unit_eq_none_iff]
    simp [Collector.hasErrors]
  · exact ⟨Lexed.tainted_iff_exists_error file, Parsed.tainted_iff_exists_error file _⟩
  · have failed := hasErrors_of_failsEarly fails
    constructor
    · exact ending.unit_eq_none_iff.mpr (hasErrors_mono ending.told failed)
    · exact fun diagnostic => ending.early (tells_loaded options archive paths) failed
  · rw [ending.map_eq]
    exact parses_loaded options archive paths

end Checked

end Cadence
