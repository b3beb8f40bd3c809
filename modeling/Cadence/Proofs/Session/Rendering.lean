import Cadence.Proofs.Parse.Pointing
import Cadence.Proofs.Resolution.Places
import Cadence.Proofs.Session.Check

/-!
# What a session reports can be shown

While files are loaded, every report points into one of them: into the file that is just read, or, if
a file cannot be read, at the place where it is demanded. What is found out later is about the trees
that were loaded and the declarations in them. So every place that a session points at lies in a file
of its source map.
-/
namespace Cadence

open Source (File FileName Map Path Span)

namespace Checked

/-- Something holds of every place that reports among some events point at. -/
def AllPlaces (holds : Span → Prop) (events : List Event) : Prop :=
  ∀ diagnostic, .report diagnostic ∈ events → diagnostic.AllPlaces holds

variable {holds : Span → Prop} {left right : List Event}

theorem AllPlaces.mono {weaker : Span → Prop} (places : AllPlaces holds left)
    (implies : ∀ span, holds span → weaker span) : AllPlaces weaker left :=
  fun diagnostic member => (places diagnostic member).mono implies

theorem AllPlaces.append (first : AllPlaces holds left) (second : AllPlaces holds right) :
    AllPlaces holds (left ++ right) := fun diagnostic member =>
  (List.mem_append.mp member).elim (first diagnostic) (second diagnostic)

/-- Texts point at nothing. -/
theorem allPlaces_of_silent (silent : ∀ diagnostic, .report diagnostic ∉ left) :
    AllPlaces holds left := fun diagnostic member => absurd member (silent diagnostic)

theorem allPlaces_report {diagnostic : Diagnostic} (places : diagnostic.AllPlaces holds) :
    AllPlaces holds [.report diagnostic] := fun _ member =>
  Event.report.inj (List.mem_singleton.mp member) ▸ places

theorem allPlaces_info (message : String) : AllPlaces holds [.info message] :=
  allPlaces_report (Diagnostic.allPlaces_of_nil rfl)

/-- The errors of a pass point at what each of them points at. -/
theorem allPlaces_errors {α : Type} {diagnosticOf : α → Diagnostic} {errors : List α}
    (places : ∀ error ∈ errors, (diagnosticOf error).AllPlaces holds) :
    AllPlaces holds ((errors.map diagnosticOf).map .report) := by
  intro diagnostic member
  obtain ⟨_, present, same⟩ := List.mem_map.mp member
  obtain ⟨error, known, rfl⟩ := List.mem_map.mp present
  exact Event.report.inj same ▸ places error known

end Checked

open Checked (AllPlaces allPlaces_errors allPlaces_info allPlaces_of_silent allPlaces_report)

/-- The path of a demand is one of the places of a node. -/
theorem Node.mem_places_of_load? {node : Node} {written : Spanned String}
    (demands : node.load? = some written) : written.span ∈ node.places := by
  cases node with
  | load span path =>
    cases demands
    exact List.mem_singleton_self _
  | procedure | struct | binding | expression | assignment => cases demands

namespace Loading

/-- Whatever came up while files were loaded points into the files. -/
structure Points (loading : Loading) : Prop where
  spaced : loading.map.IsSpaced
  reported : AllPlaces loading.map.Holds loading.events
  parsed : ∀ parsed ∈ loading.files, ∀ place ∈ Node.placesAll parsed.nodes, loading.map.Holds place

/-- The places at which files are demanded lie in a source map. -/
def AreDemandedIn (map : Map) (requests : List FileRequest) : Prop :=
  ∀ request ∈ requests, ∀ span ∈ request.origin, map.Holds span

variable {options : SessionOptions} {loading : Loading}

theorem points_start : start.Points :=
  ⟨Map.isSpaced_empty, fun _ => nofun, List.forall_mem_nil _⟩

theorem Points.say (points : loading.Points) {events : List Event}
    (places : AllPlaces loading.map.Holds events) : (loading.say events).Points :=
  ⟨points.spaced, points.reported.append places, points.parsed⟩

theorem Points.ask (points : loading.Points) (path : Path) : (loading.ask path).Points := by
  have same : Points { loading with asked := path :: loading.asked } :=
    ⟨points.spaced, points.reported, points.parsed⟩
  exact same.say (allPlaces_info _)

/-- What cannot be loaded is reported where it is demanded. -/
theorem allPlaces_failed {holds : Span → Prop} {request : FileRequest}
    (known : ∀ span ∈ request.origin, holds span) (path : Path) (failure : ReadFailure) :
    (failed request path failure).AllPlaces holds := by
  cases origin : request.origin with
  | none => simp [failed, origin]
  | some span => simp [failed, origin, known span origin]

theorem Points.readTokens (points : loading.Points) (name : FileName) (text : List Char) :
    (loading.readTokens options name text).Points := by
  have grown (span : Span) (holds : loading.map.Holds span) : (loading.map.add name text).Holds span :=
    holds.add name text
  have same : Points { loading with map := loading.map.add name text } :=
    ⟨points.spaced.add name text, points.reported.mono grown,
      fun parsed member place inside => grown place (points.parsed parsed member place inside)⟩
  apply same.say
  apply AllPlaces.append
  · apply allPlaces_errors
    intro error member
    exact (Lexed.allPlaces_errors _ error member).mono fun span holds =>
      ⟨_, loading.map.mem_add name text, holds⟩
  · apply allPlaces_of_silent
    intro diagnostic
    split <;> simp [tokenLines]

theorem Points.readTrees (points : loading.Points) {file : File} (member : file ∈ loading.map.files) :
    (loading.readTrees options file (Parsed.ofFile file)).Points := by
  have within (span : Span) (holds : file.Holds span) : loading.map.Holds span := ⟨file, member, holds⟩
  have same : Points { loading with files := loading.files ++ [⟨file, (Parsed.ofFile file).nodes⟩] } := by
    refine ⟨points.spaced, points.reported, ?_⟩
    intro parsed known place inside
    rcases List.mem_append.mp known with old | new
    · exact points.parsed parsed old place inside
    · obtain rfl := List.mem_singleton.mp new
      exact within place (Parsed.holds_places file place inside)
  apply same.say
  apply AllPlaces.append
  · apply allPlaces_errors
    intro error known
    exact (Parsed.allPlaces_errors file error known).mono within
  · apply allPlaces_of_silent
    intro diagnostic
    split <;> simp

/-- A file points into itself, and so do the demands in it. -/
theorem Points.read (points : loading.Points) (path : Path) (text : List Char) :
    (loading.read options path text).1.Points ∧
      (loading.read options path text).1.map = loading.map.add (.path path) text ∧
        AreDemandedIn (loading.map.add (.path path) text) (loading.read options path text).2 := by
  have lexed : (loading.readTokens options (.path path) text).Points := points.readTokens (.path path) text
  have member := loading.map.mem_add (.path path) text
  simp only [Loading.read]
  split
  · exact ⟨lexed, rfl, List.forall_mem_nil _⟩
  · refine ⟨lexed.readTrees member, rfl, ?_⟩
    intro request demanded span origin
    obtain ⟨written, inside, rfl⟩ := List.mem_map.mp demanded
    obtain ⟨node, isNode, demands⟩ := List.mem_filterMap.mp inside
    obtain rfl := Option.some.inj origin
    refine ⟨_, member, Parsed.holds_places _ _ ?_⟩
    rw [Node.placesAll_eq]
    exact List.mem_flatMap.mpr ⟨node, isNode, Node.mem_places_of_load? demands⟩

/-- Whatever comes up points into the files, in whichever order they are asked for. -/
theorem Points.load (points : loading.Points) (archive : Archive) {requests : List FileRequest}
    (within : AreDemandedIn loading.map requests) : (loading.load options archive requests).Points := by
  fun_induction Loading.load options archive loading requests with
  | case1 => exact points
  | case2 loading request rest path asked ih =>
    exact ih points (List.forall_mem_cons.mp within).2
  | case3 loading request rest path fresh missing ih =>
    obtain ⟨own, others⟩ := List.forall_mem_cons.mp within
    exact ih ((points.ask path).say (allPlaces_report (allPlaces_failed own path _))) others
  | case4 loading request rest path fresh text found step ih =>
    obtain ⟨read, same, demands⟩ := (points.ask path).read path text
    apply ih read
    rw [same]
    intro other waiting span origin
    rcases List.mem_append.mp waiting with new | old
    · exact demands other new span origin
    · -- it lies in a file that was there before, and no file is ever left out
      exact (within other (List.mem_cons_of_mem _ old) span origin).add _ _

end Loading

namespace Checked

theorem points_loaded (options : SessionOptions) (archive : Archive) (paths : List Path) :
    (loaded options archive paths).Points := by
  apply Loading.points_start.load archive
  -- the files that a session is asked for are demanded nowhere
  intro request member span origin
  obtain ⟨path, _, rfl⟩ := List.mem_map.mp member
  cases origin

variable {options : SessionOptions} {loading : Loading}

theorem allPlaces_symbols {holds : Span → Prop} (table : SymbolTable) :
    AllPlaces holds (symbols options table) := by
  apply allPlaces_of_silent
  intro diagnostic
  unfold symbols
  split <;> simp

theorem allPlaces_finish {holds : Span → Prop} {map : Map} {events : List Event} {passes : List Pass}
    {unit : Option CheckedUnit} (places : AllPlaces holds events) :
    AllPlaces holds (finish options map events passes unit).events :=
  fun diagnostic member => places diagnostic (mem_of_finish member)

/-- A session points into the files that were loaded for it. -/
theorem Ending.allPlaces {checked : Checked} (ending : Ending options loading checked)
    (points : loading.Points) : AllPlaces loading.map.Holds checked.events := by
  have annotating (message : String) : AllPlaces loading.map.Holds (loading.events ++ [.info message]) :=
    points.reported.append (allPlaces_info _)
  cases ending with
  | failed | parsed => exact allPlaces_finish points.reported
  | registered _ message => exact allPlaces_finish ((annotating message).append (allPlaces_symbols _))
  | resolved _ message message' resolved _ resolves =>
    obtain ⟨table, trees⟩ := Registered.allPlaces_ofFiles (List.forall_mem_map.mpr points.parsed)
    have errors := Resolved.allPlaces_errors resolves table trees
    have resolving := (annotating message).append (allPlaces_info message')
    exact allPlaces_finish ((resolving.append (allPlaces_errors errors)).append (allPlaces_symbols _))

/-- Whatever the files, paths and options are, each place that a session points at goes from one
character boundary of a file of its source map to the same or a later one, where the end of the file
counts as well; the file is the one that is found for the place, and no index exceeds the number of
all bytes and files. So every diagnostic can be shown. -/
theorem diagnostics_can_be_shown (options : SessionOptions) (archive : Archive) (paths : List Path) :
    ∃ checked, ofPaths options archive paths = .ok checked ∧
      ∀ diagnostic, .report diagnostic ∈ checked.events →
        (∀ highlight ∈ diagnostic.highlights, highlight.span.IsOrdered ∧
          highlight.span.stop ≤
            Source.byteSize (checked.map.files.flatMap File.content) + checked.map.files.length ∧
          ∃ file ∈ checked.map.files, checked.map.file? highlight.span = some file ∧
            file.HasBoundary highlight.span.start ∧ file.HasBoundary highlight.span.stop) ∧
        ∀ colored, (diagnostic.render? (some checked.map) colored).isSome = true := by
  obtain ⟨checked, run, ending⟩ := exists_ending_loaded options archive paths
  have points := points_loaded options archive paths
  have places := ending.allPlaces points
  refine ⟨checked, run, ?_⟩
  intro diagnostic reported
  rw [ending.map_eq]
  constructor
  case right => exact Diagnostic.isSome_render? points.spaced (places diagnostic reported)
  intro highlight member
  obtain ⟨file, isFile, holds⟩ := places diagnostic reported highlight member
  obtain ⟨first, second, ordered⟩ := File.holds_iff.mp holds
  exact ⟨ordered, holds.stop_le.trans (points.spaced.stop_le isFile), file, isFile,
    points.spaced.file?_of_holds isFile holds, first, second⟩

end Checked

end Cadence
