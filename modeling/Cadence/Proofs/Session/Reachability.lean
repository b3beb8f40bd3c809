import Cadence.Proofs.Plan.Registration
import Cadence.Proofs.Session.Check

/-!
# Sessions load what can be reached

If no error is reported, all demands are followed and all files are parsed. Neither registration nor
resolution adds or removes any, so the files of the unit are those that can be reached.
-/
namespace Cadence

open Source (File Path)

/-- Files are parsed unless the session halts in front of that. -/
theorem SessionOptions.haltsAfter_lexing (options : SessionOptions)
    (parses : options.haltAfter ≠ some .lexing) : options.haltsAfter .lexing = false := by
  rw [haltsAfter]
  cases known : options.haltAfter with
  | none => rfl
  | some last =>
    cases last with
    | lexing => exact absurd known parses
    | parsing | registration | resolution => rfl

/-- The files are those that can be reached from some paths through what is demanded in them, each
one once, in the order in which a depth-first traversal comes by them. -/
structure Archive.Reaches (archive : Archive) (paths order : List Path) (files : List File) : Prop where
  visits : Visits archive.demanded [] (paths.map Path.normalize) order
  distinct : order.Nodup
  mem_iff : ∀ path, path ∈ order ↔ ∃ start ∈ paths.map Path.normalize,
    Relation.ReflTransGen (LeadsTo archive.demanded) start path
  holds : List.Forall₂ archive.Holds files order

namespace Checked

variable {options : SessionOptions} {archive : Archive} {paths : List Path}

section Silent

variable (silent : hasErrors (loaded options archive paths).events = false)

include silent

/-- If no error is reported, the tokens of all files are in order. -/
theorem not_tainted_loaded : ∀ file ∈ (loaded options archive paths).map.files,
    (Lexed.ofFile file).tainted = false := by
  intro file member
  by_contra tainted
  have failed := hasErrors_of_failsEarly (.inr (.inl ⟨file, member, by simpa using tainted⟩))
  rw [silent] at failed
  cases failed

/-- Then all files are parsed. -/
theorem files_loaded (parses : options.haltsAfter .lexing = false) :
    (loaded options archive paths).files.map ParsedFile.file = (loaded options archive paths).map.files := by
  have intact := not_tainted_loaded silent
  rw [parses_loaded options archive paths, parses, if_neg Bool.false_ne_true,
    List.filter_eq_self.mpr fun file member => by rw [intact file member]; rfl, List.map_map]
  exact List.map_id _

/-- All demands are followed and all that they lead to is loaded. -/
theorem exists_reaches_loaded (parses : options.haltsAfter .lexing = false) :
    ∃ order, archive.Reaches paths order ((loaded options archive paths).files.map ParsedFile.file) := by
  obtain ⟨order, visits, -, ⟨files, map_eq, holds⟩, -, missing⟩ :=
    exists_traverses_loaded options archive paths
  have map_eq : (loaded options archive paths).map.files = files := map_eq
  have present : ∀ path ∈ order, (archive.text? path).isSome = true := by
    intro path member
    by_contra nothing
    obtain ⟨request, _, reported⟩ := missing path member (Option.not_isSome_iff_eq_none.mp nothing)
    have failed := hasErrors_of_report reported (Loading.isError_failed _ _ _)
    rw [silent] at failed
    cases failed
  rw [List.filter_eq_self.mpr present] at holds
  rw [files_loaded silent parses, map_eq]
  have intact := not_tainted_loaded silent
  rw [map_eq] at intact
  -- the traversal along what is followed is one along all demands
  have all : Visits archive.demanded [] (paths.map Path.normalize) order := by
    refine visits.congr fun path member => ?_
    obtain ⟨index, inside, rfl⟩ := List.mem_iff_getElem.mp member
    have inside' : index < files.length := by rwa [holds.length_eq]
    exact (holds.get inside' inside).followed_eq parses (intact _ (List.getElem_mem inside'))
  exact ⟨order, all, all.nodup.1, all.mem_iff, holds⟩

end Silent

end Checked

theorem Resolving.length_mapM {α β : Type} (step : α → Resolving β) (items : List α) (walk : Walk) :
    (items.mapM step).Ends walk fun results _ => results.length = items.length := by
  induction items generalizing walk with
  | nil => exact .pure rfl
  | cons first rest ih =>
    rw [List.mapM_cons]
    refine (Ends.any _ _).bind fun result middle _ => (ih middle).bind fun results after same => ?_
    exact .pure (by rw [List.length_cons, List.length_cons, same])

/-- Resolution keeps the number of the files. -/
theorem Resolved.length_files {registered : Registered} {resolved : Resolved}
    (run : ofRegistered registered = .ok resolved) : resolved.files.length = registered.files.length := by
  obtain ⟨⟨results, after⟩, walked, rfl⟩ := Except.bind_eq_ok run
  have kept : Resolving.Ends (do
        let files ← registered.files.mapM Resolving.file
        Resolving.finish
        return files) (.start registered.table) fun results _ =>
      results.length = registered.files.length :=
    (Resolving.length_mapM _ _ _).bind fun results middle same =>
      (Resolving.Ends.any _ _).bind fun _ _ _ => .pure same
  rw [List.length_map]
  exact kept _ _ walked

theorem Registered.length_files (files : List (List Node)) :
    (ofFiles files).files.length = files.length := by
  have plans := congrArg List.length (plans_ofFiles files)
  rw [Plan.length_numberAll, Registered.plans, List.length_map, List.length_map] at plans
  exact plans

namespace Checked

theorem map_file_withNodes {files : List ParsedFile} {nodes : List (List Node)}
    (same : nodes.length = files.length) :
    (withNodes files nodes).map ParsedFile.file = files.map ParsedFile.file := by
  have first : (files.zip nodes).map Prod.fst = files := List.map_fst_zip same.ge
  rw [withNodes, ← List.map_uncurry_zip_eq_zipWith, List.map_map]
  conv_rhs => rw [← first, List.map_map]
  rfl

/-- The files of the unit are those that were loaded. -/
theorem Ending.files_eq {options : SessionOptions} {loading : Loading} {checked : Checked}
    (ending : Ending options loading checked) {unit : CheckedUnit} (found : checked.unit = some unit) :
    unit.files.map ParsedFile.file = loading.files.map ParsedFile.file := by
  have registered_length : loading.registered.files.length = loading.files.length := by
    rw [Loading.registered, Registered.length_files, List.length_map]
  cases ending with
  | failed => cases found
  | parsed =>
    cases found
    rfl
  | registered =>
    cases found
    exact map_file_withNodes registered_length
  | resolved _ _ _ resolved _ resolves =>
    -- there is a unit only if resolution has found no errors
    simp only [finish] at found
    split at found
    · cases found
      exact map_file_withNodes ((Resolved.length_files resolves).trans registered_length)
    · cases found

/-- What was reported while files were loaded keeps the unit back. -/
theorem Ending.silent {options : SessionOptions} {loading : Loading} {checked : Checked}
    (ending : Ending options loading checked) {unit : CheckedUnit} (found : checked.unit = some unit) :
    hasErrors loading.events = false := by
  rw [← Bool.not_eq_true]
  intro failed
  rw [ending.unit_eq_none_iff.mpr (hasErrors_mono ending.told failed)] at found
  cases found

/-- What is asked for is normalized. -/
theorem normalize_of_mem {options : SessionOptions} {archive : Archive} {paths order : List Path}
    (visits : Visits (archive.followed options) [] (paths.map Path.normalize) order) :
    ∀ path ∈ order, path.normalize = path := by
  intro path member
  obtain ⟨start, inside, reaches⟩ := visits.reachable path member
  rcases Relation.ReflTransGen.cases_tail reaches with rfl | ⟨whole, _, leads⟩
  · obtain ⟨given, _, rfl⟩ := List.mem_map.mp inside
    exact given.normalize_normalize
  · exact archive.normalize_of_followed leads

/-- Loading some paths ends, also if files demand each other: it is a depth-first traversal along the
demands that are followed. Each normalized path is asked for at most once. If no error is reported,
the files of the unit are those that the paths reach through the demands at the top of files, each
once, in the order of a depth-first traversal along all demands. -/
theorem session_loads_reachable_files (options : SessionOptions)
    (parses : options.haltAfter ≠ some .lexing) (archive : Archive) (paths : List Path) :
    (∃ order, Visits (archive.followed options) [] (paths.map Path.normalize) order ∧
      (loaded options archive paths).asked = order.reverse) ∧
    (loaded options archive paths).asked.Nodup ∧
    (∀ path ∈ (loaded options archive paths).asked, path.normalize = path) ∧
    ∃ checked, ofPaths options archive paths = .ok checked ∧
      (hasErrors checked.events = false → ∃ unit order, checked.unit = some unit ∧
        archive.Reaches paths order (unit.files.map ParsedFile.file)) := by
  obtain ⟨order, traverses⟩ := exists_traverses_loaded options archive paths
  have visits := traverses.visits
  have asked : (loaded options archive paths).asked = order.reverse :=
    traverses.asked_eq.trans (List.append_nil _)
  refine ⟨⟨order, visits, asked⟩, ?_, ?_, ?_⟩
  · rw [asked]
    exact List.nodup_reverse.mpr visits.nodup.1
  · rw [asked]
    exact fun path member => normalize_of_mem visits path (List.mem_reverse.mp member)
  · obtain ⟨checked, run, ending⟩ := exists_ending_loaded options archive paths
    refine ⟨checked, run, fun silent => ?_⟩
    -- a session without a unit has reported errors
    cases found : checked.unit with
    | none =>
      rw [ending.unit_eq_none_iff.mp found] at silent
      cases silent
    | some unit =>
      obtain ⟨order, reaches⟩ :=
        exists_reaches_loaded (ending.silent found) (options.haltsAfter_lexing parses)
      exact ⟨unit, order, rfl, ending.files_eq found ▸ reaches⟩

/-- A file that demands one in a folder, which demands it in turn. -/
def ahead : Path × List Char := (.ofString "a", "#load \"b/c\"".toList)

def behind : Path × List Char := (.ofString "b/c", "#load \"../a\"".toList)

def circle : Archive := .ofTexts [ahead, behind]

/-- What is loaded for the first file, and then for the second. -/
def readAhead : Loading × List FileRequest := (Loading.start.ask ahead.1).read {} ahead.1 ahead.2

def readBehind : Loading × List FileRequest := (readAhead.1.ask behind.1).read {} behind.1 behind.2

/-- The file that is asked for a second time is not read again. -/
theorem loaded_circle : loaded {} circle [.ofString "./a"] = readBehind.1 := by
  have demandsBehind : readAhead.2 = [⟨.ofString "b/c", some ⟨7, 12⟩⟩] := by decide +kernel
  have demandsAhead : readBehind.2 = [⟨.ofString "b/../a", some ⟨19, 25⟩⟩] := by decide +kernel
  calc loaded {} circle [.ofString "./a"]
    _ = readAhead.1.load {} circle (readAhead.2 ++ []) :=
      Loading.load_found (by decide +kernel) (by decide +kernel) (by decide +kernel) []
    _ = readBehind.1.load {} circle (readBehind.2 ++ []) := by
      rw [demandsBehind, List.append_nil]
      exact Loading.load_found (by decide +kernel) (by decide +kernel) (by decide +kernel) []
    _ = readBehind.1 := by
      rw [demandsAhead, List.append_nil, Loading.load_again (by decide +kernel), Loading.load]

/-- The circle is checked without an error, and so its files are those that can be reached. -/
theorem circle_is_checked :
    ({} : SessionOptions).haltAfter ≠ some .lexing ∧
    ∃ checked unit order, ofPaths {} circle [.ofString "./a"] = .ok checked ∧
      hasErrors checked.events = false ∧ checked.unit = some unit ∧
      circle.Reaches [.ofString "./a"] order (unit.files.map ParsedFile.file) := by
  have evaluated : (match ofLoading {} readBehind.1 with
      | .ok checked => !hasErrors checked.events
      | .error _ => false) = true := by
    decide +kernel
  refine ⟨nofun, ?_⟩
  obtain ⟨_, _, _, checked, run, reaches⟩ :=
    session_loads_reachable_files {} nofun circle [.ofString "./a"]
  have run' := run
  rw [ofPaths, loaded_circle] at run'
  rw [run'] at evaluated
  have silent : hasErrors checked.events = false := by simpa using evaluated
  obtain ⟨unit, order, found, reaches⟩ := reaches silent
  exact ⟨checked, unit, order, run, silent, found, reaches⟩

end Checked

end Cadence
