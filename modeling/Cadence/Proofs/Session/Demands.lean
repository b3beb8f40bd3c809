import Cadence.Proofs.Parse.Position
import Cadence.Proofs.Session.Loading
import Cadence.Proofs.Session.Traversal
import Cadence.Proofs.Source.Path

/-!
# Loading follows the demands of the files

What a path leads to, and what is demanded there, is determined by the archive alone: the trees of a
file do not depend on where it comes to lie. So loading is a depth-first traversal along the demands,
whatever was loaded before. Each path that is visited becomes a file, or it is reported that it leads to
no text.
-/
namespace Cadence

open Source (File FileName Map Path)

/-- The same text in two source maps is tainted in both or in none, and it demands the same paths. -/
theorem Parsed.same_place (map other : Map) (name : FileName) (text : List Char) :
    (Lexed.ofFile (map.place name text)).tainted = (Lexed.ofFile (other.place name text)).tainted ∧
      Node.loadedPaths (ofFile (map.place name text)).nodes =
        Node.loadedPaths (ofFile (other.place name text)).nodes :=
  same_at name (Source.withoutReturns text) map.nextStart other.nextStart

namespace Archive

/-- The file that a path leads to, as the only one in its source map. -/
def file? (archive : Archive) (path : Path) : Option File :=
  (archive.text? path).map (Map.empty.place (.path path))

/-- The paths that a file demands at its top level, in their order, each one continued from the
folder of the file and normalized. -/
def demanded (archive : Archive) (path : Path) : List Path :=
  match archive.file? path with
  | none => []
  | some file => (Node.loadedPaths (Parsed.ofFile file).nodes).map fun written =>
    ((path.parent?.getD (.ofString "")).join (.ofString written)).normalize

/-- The demands that are followed. Those of a file with faulty tokens stay unknown, and so do all of
them if nothing is parsed. -/
def followed (archive : Archive) (options : SessionOptions) (path : Path) : List Path :=
  match archive.file? path with
  | none => []
  | some file =>
    if (Lexed.ofFile file).tainted || options.haltsAfter .lexing then [] else archive.demanded path

theorem normalize_of_demanded (archive : Archive) {whole path : Path}
    (demanded : path ∈ archive.demanded whole) : path.normalize = path := by
  rw [Archive.demanded] at demanded
  split at demanded
  · cases demanded
  · obtain ⟨written, _, rfl⟩ := List.mem_map.mp demanded
    exact Path.normalize_normalize _

theorem normalize_of_followed (archive : Archive) {options : SessionOptions} {whole path : Path}
    (followed : path ∈ archive.followed options whole) : path.normalize = path := by
  rw [Archive.followed] at followed
  split at followed
  · cases followed
  split at followed
  · cases followed
  · exact archive.normalize_of_demanded followed

/-- Whether a file, wherever it lies, is the one that a path leads to. -/
def Holds (archive : Archive) (file : File) (path : Path) : Prop :=
  file.name = .path path ∧ (archive.text? path).map Source.withoutReturns = some file.content

/-- All that a file demands is followed if its tokens are in order and trees are made of them. -/
theorem Holds.followed_eq {archive : Archive} {file : File} {path : Path} (holds : archive.Holds file path)
    {options : SessionOptions} (parses : options.haltsAfter .lexing = false)
    (intact : (Lexed.ofFile file).tainted = false) : archive.followed options path = archive.demanded path := by
  obtain ⟨name, content, start⟩ := file
  obtain ⟨rfl, same⟩ := holds
  obtain ⟨text, found, rfl⟩ := Option.map_eq_some_iff.mp same
  have alone := (Parsed.same_at (.path path) (Source.withoutReturns text) start Map.empty.nextStart).1
  rw [intact] at alone
  rw [followed, file?, found, Option.map_some, Map.place]
  simp only [← alone, parses, Bool.or_self, Bool.false_eq_true, if_false]

end Archive

namespace Loading

/-- The normalized paths of some requests. -/
def wanted (requests : List FileRequest) : List Path := requests.map fun request => request.path.normalize

theorem wanted_paths (paths : List Path) : wanted (paths.map (⟨·, none⟩)) = paths.map Path.normalize := by
  rw [wanted, List.map_map]
  rfl

theorem wanted_demands (path : Path) (nodes : List Node) :
    wanted (demands path nodes) = (Node.loadedPaths nodes).map fun written =>
      ((path.parent?.getD (.ofString "")).join (.ofString written)).normalize := by
  simp only [wanted, demands, Node.loadedPaths, List.map_map]
  rfl

section Step

variable {options : SessionOptions} {archive : Archive} {loading : Loading} {path : Path}
  {text : List Char}

/-- What a file demands does not depend on what was loaded before it. -/
theorem wanted_read (found : archive.text? path = some text) :
    wanted (loading.read options path text).2 = archive.followed options path := by
  have known : archive.file? path = some (Map.empty.place (.path path) text) := by
    rw [Archive.file?, found]
    rfl
  obtain ⟨tainted, paths⟩ := Parsed.same_place loading.map .empty (.path path) text
  simp only [Loading.read, Archive.followed, Archive.demanded, known]
  by_cases stops : ((Lexed.ofFile (loading.map.place (.path path) text)).tainted ||
    options.haltsAfter .lexing) = true
  · rw [if_pos stops, if_pos (tainted ▸ stops)]
    rfl
  · rw [if_neg stops, if_neg fun same => stops (tainted ▸ same)]
    exact (wanted_demands path _).trans (congrArg (List.map _) paths)

theorem files_read : (loading.read options path text).1.map.files =
    loading.map.files ++ [loading.map.place (.path path) text] := by
  simp only [Loading.read]
  split <;> rfl

theorem events_read : loading.events <+: (loading.read options path text).1.events := by
  simp only [Loading.read]
  split
  · exact List.prefix_append _ _
  · exact (List.prefix_append _ _).trans (List.prefix_append _ _)

end Step

/-- A request that was made before leads to nothing. -/
theorem load_again {options : SessionOptions} {archive : Archive} {loading : Loading} {request : FileRequest}
    (known : request.path.normalize ∈ loading.asked) (rest : List FileRequest) :
    loading.load options archive (request :: rest) = loading.load options archive rest := by
  rw [load, dif_pos known]

/-- A text that is found is read, and what it demands stands in front of the other requests. -/
theorem load_found {options : SessionOptions} {archive : Archive} {loading : Loading} {request : FileRequest}
    {path : Path} {text : List Char} (same : request.path.normalize = path) (fresh : path ∉ loading.asked)
    (found : archive.text? path = some text) (rest : List FileRequest) :
    loading.load options archive (request :: rest) =
      let step := (loading.ask path).read options path text
      step.1.load options archive (step.2 ++ rest) := by
  subst same
  rw [load, dif_neg fresh]
  split
  next missing =>
    rw [found] at missing
    cases missing
  next other present =>
    obtain rfl := Option.some.inj (found.symm.trans present)
    rfl

/-- What loading some files comes to: a traversal, in which each text that is found becomes a file, and
each path that leads to no text is reported. -/
structure Traverses (options : SessionOptions) (archive : Archive) (before after : Loading)
    (requests order : List Path) : Prop where
  visits : Visits (archive.followed options) before.asked requests order
  asked_eq : after.asked = order.reverse ++ before.asked
  holds : ∃ files, after.map.files = before.map.files ++ files ∧
    List.Forall₂ archive.Holds files (order.filter fun path => (archive.text? path).isSome)
  told : before.events <+: after.events
  missing : ∀ path ∈ order, archive.text? path = none → ∃ request : FileRequest,
    request.path.normalize = path ∧ .report (failed request path (archive.failure path)) ∈ after.events

/-- Loading ends, and it is a depth-first traversal along the demands that are followed. -/
theorem exists_traverses (options : SessionOptions) (archive : Archive) (loading : Loading)
    (requests : List FileRequest) :
    ∃ order, Traverses options archive loading (loading.load options archive requests)
      (wanted requests) order := by
  -- along the recursion of the loader, with one case for each rule of a traversal
  fun_induction Loading.load options archive loading requests with
  | case1 loading => exact ⟨[], .done, rfl, ⟨[], by simp⟩, List.prefix_refl _, List.forall_mem_nil _⟩
  | case2 loading request rest path asked ih =>
    obtain ⟨order, traverses⟩ := ih
    exact ⟨order, { traverses with visits := .again asked traverses.visits }⟩
  | case3 loading request rest path fresh nothing ih =>
    obtain ⟨order, visits, asked_eq, ⟨files, files_eq, holds⟩, told, missing⟩ := ih
    -- a path that leads to no text demands nothing
    have leaf : Visits (archive.followed options) (path :: loading.asked)
        (archive.followed options path) [] := by
      rw [Archive.followed, Archive.file?, nothing]
      exact .done
    refine ⟨path :: order, .enter fresh leaf visits, ?_, ⟨files, files_eq, ?_⟩, ?_, ?_⟩
    · rw [asked_eq, asked_say, asked_ask, List.reverse_cons, List.append_assoc, List.singleton_append]
    · rwa [List.filter_cons_of_neg (by simp [nothing])]
    · exact ((List.prefix_append _ _).trans (List.prefix_append _ _)).trans told
    · refine List.forall_mem_cons.mpr ⟨fun _ => ⟨request, rfl, told.subset ?_⟩, missing⟩
      exact List.mem_append_right _ (List.mem_singleton_self _)
  | case4 loading request rest path fresh text found step ih =>
    obtain ⟨order, visits, asked_eq, ⟨files, files_eq, holds⟩, told, missing⟩ := ih
    have asked : step.1.asked = path :: loading.asked := asked_read.trans asked_ask
    -- what the file demands stands in front of the other requests
    rw [wanted, List.map_append, asked] at visits
    obtain ⟨inner, outer, rfl, inside, behind⟩ := visits.of_append
    rw [← wanted, wanted_read found] at inside
    refine ⟨path :: (inner ++ outer), .enter fresh inside behind, ?_,
      ⟨loading.map.place (.path path) text :: files, ?_, ?_⟩, ?_, ?_⟩
    · rw [asked_eq, asked]
      simp
    · rw [files_eq, show step.1.map.files = _ from files_read, List.append_assoc, List.singleton_append]
      rfl
    · rw [List.filter_cons_of_pos (by simp [found])]
      exact .cons ⟨rfl, by rw [found]; rfl⟩ holds
    · have read : (loading.ask path).events <+: step.1.events := events_read
      exact ((List.prefix_append _ _).trans read).trans told
    · refine List.forall_mem_cons.mpr ⟨fun nothing => ?_, missing⟩
      rw [found] at nothing
      cases nothing

/-- The text of each path that is visited, if there is one, is that of a file. -/
theorem Traverses.exists_holds {options : SessionOptions} {archive : Archive} {before after : Loading}
    {requests order : List Path} (traverses : Traverses options archive before after requests order)
    {path : Path} (member : path ∈ order) (present : (archive.text? path).isSome = true) :
    ∃ file ∈ after.map.files, archive.Holds file path := by
  obtain ⟨files, files_eq, holds⟩ := traverses.holds
  -- the file stands where the path stands among those that lead to a text
  have found : path ∈ order.filter fun path => (archive.text? path).isSome :=
    List.mem_filter.mpr ⟨member, present⟩
  obtain ⟨index, inside, rfl⟩ := List.mem_iff_getElem.mp found
  have inside' : index < files.length := by rwa [holds.length_eq]
  rw [files_eq]
  exact ⟨files[index], List.mem_append_right _ (List.getElem_mem inside'), holds.get inside' inside⟩

end Loading

end Cadence
