import Cadence.Proofs.Session.Reachability
import Cadence.Proofs.Syntax.Usage

/-!
# Demands in the trees of a unit

Neither registration nor resolution changes what is demanded at the top of a file, so the unit of a
session has all that its files demand there. Demands within blocks are parsed as well, but a session
does not look for them.
-/
namespace Cadence

open Source (File FileName Map Path)

/-- What is demanded at the top of a file. -/
def Node.loads (nodes : List Node) : List (Spanned String) := nodes.filterMap Node.load?

theorem Node.mem_loads {nodes : List Node} {written : Spanned String} :
    written ∈ Node.loads nodes ↔ ∃ span, .load span written ∈ nodes := by
  rw [loads, List.mem_filterMap]
  constructor
  · rintro ⟨node, member, demands⟩
    cases node with
    | load span path =>
      cases demands
      exact ⟨span, member⟩
    | procedure | struct | binding | expression | assignment => cases demands
  · rintro ⟨span, member⟩
    exact ⟨_, member, rfl⟩

theorem Node.loads_cons (first : Node) (rest : List Node) :
    Node.loads (first :: rest) = first.load?.toList ++ Node.loads rest := by
  cases first <;> rfl

section Passes

theorem Node.load?_markUsage (required tail : Bool) (node : Node) :
    (node.markUsage required tail).load? = node.load? := by
  cases node <;> rfl

theorem Node.RegisteredAs.load?_eq {plain registered : Node} (same : plain.RegisteredAs registered) :
    registered.load? = plain.load? := by
  obtain ⟨builder, rfl⟩ := same
  cases plain with
  | procedure span head body => cases body <;> rfl
  | struct | binding | load | expression | assignment => rfl

/-- Related nodes with the same demands demand the same as a whole. -/
theorem Node.loads_eq_of_forall₂ {left right : List Node}
    (same : List.Forall₂ (fun one other => other.load? = one.load?) left right) :
    Node.loads right = Node.loads left := by
  induction same with
  | nil => rfl
  | cons first _ ih => rw [loads_cons, loads_cons, first, ih]

theorem Registration.loads_file (nodes : List Node) (builder : SymbolBuilder) :
    Node.loads ((Registration.file nodes).run builder).1 = Node.loads nodes := by
  have registered := Node.rel_registerAll (nodes.map (Node.markUsage false false)) builder
  have marked : Node.loads (nodes.map (Node.markUsage false false)) = Node.loads nodes := by
    rw [Node.loads, List.filterMap_map]
    exact List.filterMap_congr fun node _ => node.load?_markUsage false false
  exact (Node.loads_eq_of_forall₂ (registered.imp fun _ _ same => same.load?_eq)).trans marked

theorem Registered.loads_ofFiles (files : List (List Node)) :
    (ofFiles files).files.map Node.loads = files.map Node.loads := by
  suffices kept : ∀ builder : SymbolBuilder,
      ((files.mapM Registration.file).run builder).1.map Node.loads = files.map Node.loads by
    exact kept .start
  induction files with
  | nil => exact fun _ => rfl
  | cons first rest ih =>
    intro builder
    rw [List.mapM_cons]
    exact congrArg₂ List.cons (Registration.loads_file first builder) (ih _)

namespace Resolving

variable {walk : Walk}

theorem load?_resolve (node : Node) :
    node.resolve.Ends walk fun result _ => result.load? = node.load? := by
  -- a demand is left as it is, and no other node turns into one
  cases node with
  | procedure span head body =>
    rw [Node.resolve]
    refine Ends.behind ?_
    intro found middle
    refine Ends.behind ?_
    intro body after
    exact .pure rfl
  | struct span declared =>
    rw [Node.resolve]
    iterate 4
      refine Ends.behind ?_
      intro _ _
    exact .pure rfl
  | binding span head initializer =>
    rw [Node.resolve]
    iterate 4
      refine Ends.behind ?_
      intro _ _
    exact .pure rfl
  | load span path => exact .pure rfl
  | expression inner =>
    rw [Node.resolve]
    refine Ends.behind ?_
    intro inner after
    exact .pure rfl
  | assignment span target operator value =>
    rw [Node.resolve]
    refine Ends.behind ?_
    intro target middle
    refine Ends.behind ?_
    intro value after
    exact .pure rfl

theorem loads_resolveAll (nodes : List Node) :
    (Node.resolveAll nodes).Ends walk fun results _ => Node.loads results = Node.loads nodes := by
  induction nodes generalizing walk with
  | nil => exact .pure rfl
  | cons first rest ih =>
    rw [Node.resolveAll]
    refine (load?_resolve first).bind ?_
    intro found middle same
    refine ih.bind ?_
    intro others after all
    refine .pure ?_
    rw [Node.loads_cons, Node.loads_cons, same, all]

theorem loads_walk (position : Nat) (nodes : List Node) :
    (Resolving.walk position nodes).Ends walk fun result _ =>
      Node.loads result.1 = Node.loads nodes := by
  refine Ends.bind_modify ?_
  refine (loads_resolveAll nodes).bind ?_
  intro results after same
  refine Ends.bind_get ?_
  exact .pure same

theorem loads_settle (position : Nat) (nodes : List Node) (deferred : Nat) :
    (settle position nodes deferred).Ends walk fun results _ =>
      Node.loads results = Node.loads nodes := by
  induction deferred using Nat.strongRecOn generalizing nodes walk with
  | ind deferred ih =>
    rw [settle]
    split
    next => exact .pure rfl
    next =>
      refine (loads_walk position nodes).bind ?_
      intro result middle same
      dsimp only
      split
      next fewer => exact (ih _ fewer result.1).mono fun _ _ again => again.trans same
      next => exact .pure same

theorem loads_file (nodes : List Node) :
    (Resolving.file nodes).Ends walk fun result _ => Node.loads result.1 = Node.loads nodes := by
  refine Ends.bind_get ?_
  refine (loads_walk _ nodes).bind ?_
  intro result middle same
  refine (loads_settle _ result.1 _).bind ?_
  intro settled after again
  refine Ends.bind_get ?_
  exact .pure (again.trans same)

theorem loads_files (files : List (List Node)) :
    (files.mapM Resolving.file).Ends walk fun results _ =>
      (results.map fun result => Node.loads result.1) = files.map Node.loads := by
  induction files generalizing walk with
  | nil => exact .pure rfl
  | cons first rest ih =>
    rw [List.mapM_cons]
    refine (loads_file first).bind ?_
    intro found middle same
    refine ih.bind ?_
    intro others after all
    exact .pure (congrArg₂ List.cons same all)

end Resolving

/-- Resolution keeps what is demanded at the top of the files. -/
theorem Resolved.loads_ofRegistered {registered : Registered} {resolved : Resolved}
    (run : ofRegistered registered = .ok resolved) :
    resolved.files.map Node.loads = registered.files.map Node.loads := by
  obtain ⟨⟨results, after⟩, walked, rfl⟩ := Except.bind_eq_ok run
  have kept : Resolving.Ends (do
        let files ← registered.files.mapM Resolving.file
        Resolving.finish
        return files) (.start registered.table) fun results _ =>
      (results.map fun result => Node.loads result.1) = registered.files.map Node.loads := by
    refine (Resolving.loads_files _).bind ?_
    intro results middle same
    refine (Resolving.Ends.any _ _).bind ?_
    intro _ _ _
    exact .pure same
  rw [List.map_map]
  exact kept _ _ walked

end Passes

namespace Checked

/-- What is demanded at the top of a file of a unit, with the file. -/
def fileLoads (parsed : ParsedFile) : File × List (Spanned String) :=
  (parsed.file, Node.loads parsed.nodes)

theorem map_fileLoads_withNodes {files : List ParsedFile} {nodes : List (List Node)}
    (same : nodes.map Node.loads = (files.map ParsedFile.nodes).map Node.loads) :
    (withNodes files nodes).map fileLoads = files.map fileLoads := by
  induction files generalizing nodes with
  | nil => rfl
  | cons first rest ih =>
    cases nodes with
    | nil => cases same
    | cons head tail =>
      obtain ⟨own, others⟩ := List.cons.inj same
      rw [withNodes, List.zipWith_cons_cons, List.map_cons, List.map_cons]
      exact congrArg₂ List.cons (congrArg (Prod.mk first.file) own) (ih others)

/-- The unit of a session has the files that were loaded, and they demand what they did. -/
theorem Ending.fileLoads_eq {options : SessionOptions} {loading : Loading} {checked : Checked}
    (ending : Ending options loading checked) {unit : CheckedUnit} (found : checked.unit = some unit) :
    unit.files.map fileLoads = loading.files.map fileLoads := by
  have kept := Registered.loads_ofFiles (loading.files.map ParsedFile.nodes)
  cases ending with
  | failed => cases found
  | parsed =>
    cases found
    rfl
  | registered =>
    cases found
    exact map_fileLoads_withNodes kept
  | resolved _ _ _ resolved _ resolves =>
    simp only [finish] at found
    split at found
    · cases found
      exact map_fileLoads_withNodes ((Resolved.loads_ofRegistered resolves).trans kept)
    · cases found

end Checked

/-- The path that a demand in a file leads to: continued from the folder of the file and normalized. -/
def loadTarget (whole : Path) (written : String) : Path :=
  ((whole.parent?.getD (.ofString "")).join (.ofString written)).normalize

/-- A file that a path leads to demands what the path does. -/
theorem Archive.Holds.demanded_eq {archive : Archive} {file : File} {path : Path}
    (holds : archive.Holds file path) :
    archive.demanded path =
      (Node.loads (Parsed.ofFile file).nodes).map fun written => loadTarget path written.value := by
  obtain ⟨name, content, start⟩ := file
  obtain ⟨rfl, same⟩ := holds
  obtain ⟨text, found, rfl⟩ := Option.map_eq_some_iff.mp same
  have known : archive.file? path = some ⟨.path path, Source.withoutReturns text, Map.empty.nextStart⟩ := by
    rw [file?, found]
    rfl
  -- the archive knows the file as the only one in its source map
  rw [demanded, known]
  dsimp only
  rw [(Parsed.same_at (.path path) (Source.withoutReturns text) Map.empty.nextStart start).2,
    Node.loadedPaths, List.map_map]
  rfl

/-- Where files are all that can be reached, each has what it demands at its top beside it. -/
theorem Archive.Reaches.follows {archive : Archive} {paths order : List Path} {files : List File}
    (reaches : archive.Reaches paths order files) {file : File} (member : file ∈ files) :
    ∃ path, file.name = .path path ∧ ∀ written ∈ Node.loads (Parsed.ofFile file).nodes,
      ∃ other ∈ files, other.name = .path (loadTarget path written.value) := by
  obtain ⟨path, isReached, holds⟩ := exists_mem_related reaches.holds member
  refine ⟨path, holds.1, ?_⟩
  intro written demanded
  obtain ⟨start, given, way⟩ := (reaches.mem_iff path).mp isReached
  have leads : LeadsTo archive.demanded path (loadTarget path written.value) := by
    rw [LeadsTo, holds.demanded_eq]
    exact List.mem_map.mpr ⟨written, demanded, rfl⟩
  have further : loadTarget path written.value ∈ order :=
    (reaches.mem_iff _).mpr ⟨start, given, way.tail leads⟩
  obtain ⟨other, isFile, there⟩ := exists_mem_related reaches.holds.flip further
  exact ⟨other, isFile, there.1⟩

namespace Checked

/-- A file of a unit is one that was loaded, and the tree in the unit demands what the tree that was
parsed does. -/
theorem loads_of_unit {options : SessionOptions} {archive : Archive} {paths : List Path}
    {checked : Checked} {unit : CheckedUnit} {file : ParsedFile}
    (ending : Ending options (loaded options archive paths) checked)
    (runs : options.haltsAfter .lexing = false) (found : checked.unit = some unit)
    (member : file ∈ unit.files) :
    file.file ∈ (loaded options archive paths).files.map ParsedFile.file ∧
      Node.loads file.nodes = Node.loads (Parsed.ofFile file.file).nodes := by
  have present : fileLoads file ∈ (loaded options archive paths).files.map fileLoads :=
    ending.fileLoads_eq found ▸ List.mem_map_of_mem member
  obtain ⟨parsed, isLoaded, same⟩ := List.mem_map.mp present
  obtain ⟨sameFile, sameLoads⟩ := Prod.mk.inj same
  have isParsed : parsed.nodes = (Parsed.ofFile parsed.file).nodes := by
    have ofFiles := parses_loaded options archive paths
    rw [ofFiles, runs, if_neg Bool.false_ne_true] at isLoaded
    obtain ⟨source, _, rfl⟩ := List.mem_map.mp isLoaded
    rfl
  constructor
  · exact sameFile ▸ List.mem_map_of_mem isLoaded
  · rw [← sameLoads, isParsed, sameFile]

/-- If a session that parses yields a unit, every file that is demanded at the top of a file of the
unit, relative to the folder of that file, is part of the unit. -/
theorem top_demands_are_loaded (options : SessionOptions)
    (parses : options.haltAfter ≠ some .lexing) (archive : Archive) (paths : List Path) :
    ∃ checked, ofPaths options archive paths = .ok checked ∧
      ∀ unit, checked.unit = some unit → ∀ file ∈ unit.files,
        ∃ path, file.file.name = .path path ∧
          ∀ span written, .load span written ∈ file.nodes →
            ∃ other ∈ unit.files, other.file.name = .path (loadTarget path written.value) := by
  obtain ⟨checked, run, ending⟩ := exists_ending_loaded options archive paths
  refine ⟨checked, run, ?_⟩
  intro unit found file member
  have runs := options.haltsAfter_lexing parses
  obtain ⟨order, reaches⟩ := exists_reaches_loaded (ending.silent found) runs
  have sameFiles := ending.files_eq found
  obtain ⟨isLoaded, sameLoads⟩ := loads_of_unit ending runs found member
  obtain ⟨path, name, follows⟩ := reaches.follows isLoaded
  refine ⟨path, name, ?_⟩
  intro span written demands
  have demanded : written ∈ Node.loads (Parsed.ofFile file.file).nodes :=
    sameLoads ▸ Node.mem_loads.mpr ⟨span, demands⟩
  obtain ⟨other, isOther, otherName⟩ := follows written demanded
  rw [← sameFiles] at isOther
  obtain ⟨beside, isBeside, rfl⟩ := List.mem_map.mp isOther
  exact ⟨beside, isBeside, otherName⟩

/-- What a unit with a file at a path, in which something holds of the nodes, comes to. -/
def hasFile (checked : Except Fault Checked) (path : String) (holds : List Node → Bool) : Bool :=
  match checked with
  | .ok checked => checked.unit.any fun unit =>
      unit.files.any fun file => file.file.name = .path (.ofString path) && holds file.nodes
  | .error _ => false

theorem exists_of_hasFile {checked : Except Fault Checked} {path : String} {holds : List Node → Bool}
    (found : hasFile checked path holds = true) :
    ∃ result unit, checked = .ok result ∧ result.unit = some unit ∧
      ∃ file ∈ unit.files, file.file.name = .path (.ofString path) ∧ holds file.nodes = true := by
  unfold hasFile at found
  split at found
  next result =>
    obtain ⟨unit, isUnit, some_⟩ := (Option.any_eq_true _ _).mp found
    obtain ⟨file, member, both⟩ := List.any_eq_true.mp some_
    obtain ⟨name, inside⟩ := (Bool.and_eq_true _ _).mp both
    exact ⟨result, unit, rfl, isUnit, file, member, of_decide_eq_true name, inside⟩
  next => cases found

/-- The first file of the circle demands the second at its top, and so the unit has the second. -/
theorem circle_has_demanded_file :
    ({} : SessionOptions).haltAfter ≠ some .lexing ∧
    ∃ checked unit, ofPaths {} circle [.ofString "./a"] = .ok checked ∧ checked.unit = some unit ∧
      (∃ file ∈ unit.files, file.file.name = .path (.ofString "a") ∧
        ∃ span written, .load span written ∈ file.nodes ∧ written.value = "b/c") ∧
      ∃ other ∈ unit.files, other.file.name = .path (.ofString "b/c") := by
  refine ⟨nofun, ?_⟩
  have evaluated : hasFile (ofLoading {} readBehind.1) "a"
      (fun nodes => (Node.loads nodes).any fun written => written.value = "b/c") = true := by
    decide +kernel
  obtain ⟨result, unit, run, isUnit, file, member, name, demands⟩ := exists_of_hasFile evaluated
  obtain ⟨checked, run', follows⟩ := top_demands_are_loaded {} nofun circle [.ofString "./a"]
  have same : checked = result := by
    rw [ofPaths, loaded_circle, run] at run'
    exact (Except.ok.inj run').symm
  subst same
  obtain ⟨written, isLoad, value⟩ := List.any_eq_true.mp demands
  obtain ⟨span, inside⟩ := Node.mem_loads.mp isLoad
  have isValue : written.value = "b/c" := of_decide_eq_true value
  refine ⟨checked, unit, run', isUnit, ⟨file, member, name, span, written, inside, isValue⟩, ?_⟩
  obtain ⟨path, isPath, others⟩ := follows unit isUnit file member
  obtain ⟨other, isOther, otherName⟩ := others span written inside
  obtain rfl : Path.ofString "a" = path := FileName.path.inj (name.symm.trans isPath)
  have leads : loadTarget (.ofString "a") "b/c" = .ofString "b/c" := by decide +kernel
  rw [isValue, leads] at otherName
  exact ⟨other, isOther, otherName⟩

/-- A file with a block that demands another one. -/
def nested : Path × List Char := (.ofString "main", "\x7b #load \"missing\" \x7d".toList)

/-- What is loaded for the file with the block, of which nothing is said to be missing. -/
theorem loaded_nested : loaded {} (.ofTexts [nested]) [.ofString "main"] =
    ((Loading.start.ask nested.1).read {} nested.1 nested.2).1 := by
  have nothing : ((Loading.start.ask nested.1).read {} nested.1 nested.2).2 = [] := by
    decide +kernel
  calc loaded {} (.ofTexts [nested]) [.ofString "main"]
    _ = ((Loading.start.ask nested.1).read {} nested.1 nested.2).1.load {} (.ofTexts [nested])
        (((Loading.start.ask nested.1).read {} nested.1 nested.2).2 ++ []) :=
      Loading.load_found (by decide +kernel) (by decide +kernel) (by decide +kernel) []
    _ = ((Loading.start.ask nested.1).read {} nested.1 nested.2).1 := by
      rw [nothing, List.append_nil, Loading.load]

/-- Whether the only node of a file has a demand as its only part. -/
def enclosesDemand (nodes : List Node) (value : String) : Bool :=
  match nodes with
  | [whole] =>
    match whole.parts with
    | [(_, .load _ written)] => written.value = value
    | _ => false
  | _ => false

theorem exists_occurs_of_enclosesDemand {nodes : List Node} {value : String}
    (encloses : enclosesDemand nodes value = true) :
    ∃ place span written, Occurs nodes place (.load span written) ∧ written.value = value := by
  unfold enclosesDemand at encloses
  split at encloses
  next whole =>
    split at encloses
    next role span written parts =>
      refine ⟨[⟨0, role⟩, ⟨0, .topLevel⟩], span, written, ?_, of_decide_eq_true encloses⟩
      apply Occurs.part
      · exact .top rfl
      · rw [parts]
        rfl
    next => cases encloses
  next => cases encloses

/-- Demands within blocks are passed over: a unit need not have what is demanded somewhere in its
trees. -/
theorem nested_demand_is_ignored :
    ¬ ∀ (archive : Archive) (paths : List Path) (checked : Checked) (unit : CheckedUnit),
      ofPaths {} archive paths = .ok checked → checked.unit = some unit → ∀ file ∈ unit.files,
        ∀ path, file.file.name = .path path → ∀ place span written,
          Occurs file.nodes place (.load span written) →
            ∃ other ∈ unit.files, other.file.name = .path (loadTarget path written.value) := by
  intro follows
  have evaluated : hasFile (ofPaths {} (.ofTexts [nested]) [.ofString "main"]) "main"
      (fun nodes => enclosesDemand nodes "missing") = true := by
    rw [ofPaths, loaded_nested]
    decide +kernel
  have alone : hasFile (ofPaths {} (.ofTexts [nested]) [.ofString "main"]) "missing" (fun _ => true) =
      false := by
    rw [ofPaths, loaded_nested]
    decide +kernel
  obtain ⟨checked, unit, run, isUnit, file, member, name, inside⟩ := exists_of_hasFile evaluated
  obtain ⟨place, span, written, occurs, isValue⟩ := exists_occurs_of_enclosesDemand inside
  obtain ⟨other, isOther, otherName⟩ := follows _ _ _ _ run isUnit file member _ name _ _ _ occurs
  have leads : loadTarget (.ofString "main") "missing" = .ofString "missing" := by decide +kernel
  rw [isValue, leads] at otherName
  -- so the unit has a file of that name, though the only one is that with the block
  have there : (unit.files.any fun file =>
      file.file.name = .path (.ofString "missing") && true) = true :=
    List.any_eq_true.mpr ⟨other, isOther, by simp [otherName]⟩
  rw [run, hasFile, isUnit, Option.any_some, there] at alone
  cases alone

end Checked

end Cadence
