import Cadence.Proofs.Parse.Results
import Cadence.Proofs.Resolution.Lockstep
import Cadence.Proofs.Symbol.Registration
import Cadence.Resolution.Unit
import Cadence.Session.Loading

/-!
# Resolution of a unit never goes astray

However often a file is walked over, every walk starts on track, and so does the first one over the
next file. Hence a unit that was registered is resolved without a fault, and every name in it has
the symbol of the declaration that it denotes.
-/
namespace Cadence

open Resolving
open Source (File)

variable {table : SymbolTable} {walk : Walk} {content declared : List Declaration}

/-- A place between two files or within one, but not in a body. -/
def Place.between (content declared : List Declaration) : Place :=
  ⟨[], ⟨SymbolTable.root, content, declared⟩⟩

theorem Place.declare_between (content declared further : List Declaration) :
    (Place.between content declared).declare further = .between content (declared ++ further) :=
  rfl

theorem Walk.StandsAt.inner_eq (stands : walk.StandsAt table (.between content declared)) :
    walk.inner = [] := by
  have lengths := congrArg List.length stands.tracks.cursors_eq
  simpa [Walk.cursors, Place.between, Place.cursors, Place.frames] using lengths

theorem Walk.StandsAt.position_eq (stands : walk.StandsAt table (.between content declared)) :
    walk.position = (entriesOf declared).length := by
  have cursors := stands.tracks.cursors_eq
  rw [Walk.cursors, stands.inner_eq] at cursors
  simpa [Place.between, Place.cursors, Place.frames, Frame.cursor] using cursors

namespace Resolving

/-- A walk can be started again from any place in front of a file. -/
theorem stands_again {later : List Declaration} (stands : walk.StandsAt table (.between content later))
    (inside : (Place.between content declared).IsIn table) :
    { walk with position := (entriesOf declared).length, errors := [], deferred := 0 }.StandsAt table
      (.between content declared) := by
  refine ⟨inside, stands.tracks.shape, stands.tracks.types, ?_⟩
  rw [Walk.cursors, stands.inner_eq]
  rfl

section Walks

variable {later : List Declaration} {nodes : List Node}

/-- What a walk over a file comes to. -/
def PassesFile (table : SymbolTable) (content declared declared' : List Declaration)
    (nodes : List Node) (after : Walk) : Prop :=
  after.Leaves table (.between content declared) declared' (Node.declarationsAll nodes)
    (Node.AllTypesAll table.BindsIn nodes)
    (Node.sightingsAll (Place.between content declared).environment nodes)

theorem walk_succeeds (stands : walk.StandsAt table (.between content later))
    (inside : (Place.between content declared).IsIn table)
    (fits : (Place.between content declared).Fits (Node.declarationsAll nodes))
    (types : Node.AllTypesAll table.BindsIn nodes)
    (isOpen : ∀ sighting ∈ Node.sightingsAll (Place.between content declared).environment nodes,
      sighting.IsOpen) :
    (Resolving.walk (entriesOf declared).length nodes).Succeeds walk fun result after =>
      PassesFile table content declared (Node.declarationsAll nodes) result.1 after := by
  apply Succeeds.bind_modify
  refine (Node.resolveAll_leaves ⟨stands_again stands inside, fits, types, isOpen⟩).bind
    fun nodes' after leaves => ?_
  exact .bind_get (.pure leaves)

/-- Every further walk over a file comes to the same as the first one. -/
theorem settle_succeeds {expected : List Declaration} (deferred : Nat)
    (inside : (Place.between content declared).IsIn table)
    (fits : (Place.between content declared).Fits expected)
    (passes : PassesFile table content declared expected nodes walk) :
    (settle (entriesOf declared).length nodes deferred).Succeeds walk
      (PassesFile table content declared expected) := by
  induction deferred using Nat.strongRecOn generalizing nodes walk with
  | ind deferred ih =>
    rw [settle]
    split
    next => exact .pure passes
    next =>
      -- the tree that comes out declares what the one before did, so that the walk can be repeated
      have same := passes.declared_eq
      refine (walk_succeeds passes.stands inside (same ▸ fits) passes.types fun sighting member =>
        (passes.right sighting member).isOpen).bind ?_
      rintro ⟨nodes', fewer⟩ after again
      rw [same] at again
      dsimp only
      split
      next less => exact ih fewer less again
      next => exact .pure again

theorem file_succeeds (stands : walk.StandsAt table (.between content declared))
    (fits : (Place.between content declared).Fits (Node.declarationsAll nodes))
    (types : Node.AllTypesAll table.BindsIn nodes)
    (isOpen : ∀ sighting ∈ Node.sightingsAll (Place.between content declared).environment nodes,
      sighting.IsOpen) :
    (file nodes).Succeeds walk fun result after =>
      PassesFile table content declared (Node.declarationsAll nodes) result.1 after := by
  apply Succeeds.bind_get
  rw [stands.position_eq]
  apply (walk_succeeds stands stands.inside fits types isOpen).bind
  rintro ⟨nodes', deferred⟩ after passes
  refine (settle_succeeds deferred stands.inside fits passes).bind fun settled after passes => ?_
  exact .bind_get (.pure passes)

end Walks

/-- The first file of several is awaited in front of the others. -/
theorem awaits_files {nodes : List Node} {rest : List (List Node)}
    (stands : walk.StandsAt table (.between content declared))
    (fits : (Place.between content declared).Fits ((nodes :: rest).flatMap Node.declarationsAll))
    (types : ∀ each ∈ nodes :: rest, Node.AllTypesAll table.BindsIn each)
    (isOpen : ∀ sighting ∈ fileSightings (Place.between content declared).environment (nodes :: rest),
      sighting.IsOpen) :
    walk.Awaits table (.between content declared)
      (Node.declarationsAll nodes ++ rest.flatMap Node.declarationsAll)
      (Node.AllTypesAll table.BindsIn nodes ∧ ∀ nodes ∈ rest, Node.AllTypesAll table.BindsIn nodes)
      (Node.sightingsAll (Place.between content declared).environment nodes ++ fileSightings
        ((Place.between content declared).declare (Node.declarationsAll nodes)).environment rest) := by
  rw [Place.environment_declare]
  exact ⟨stands, fits, List.forall_mem_cons.mp types, isOpen⟩

/-- The files of a unit are resolved one after the other. -/
theorem files_succeed {files : List (List Node)}
    (stands : walk.StandsAt table (.between content declared))
    (fits : (Place.between content declared).Fits (files.flatMap Node.declarationsAll))
    (types : ∀ nodes ∈ files, Node.AllTypesAll table.BindsIn nodes)
    (isOpen : ∀ sighting ∈ fileSightings (Place.between content declared).environment files,
      sighting.IsOpen) :
    (files.mapM file).Succeeds walk fun result after =>
      after.Leaves table (.between content declared) (files.flatMap Node.declarationsAll)
        ((result.map Prod.fst).flatMap Node.declarationsAll)
        (∀ nodes ∈ result.map Prod.fst, Node.AllTypesAll table.BindsIn nodes)
        (fileSightings (Place.between content declared).environment (result.map Prod.fst)) := by
  induction files generalizing walk declared with
  | nil => exact .pure (stands.leaves_nothing (by simp))
  | cons nodes rest ih =>
    have whole := awaits_files stands fits types isOpen
    have first := whole.left
    rw [List.mapM_cons]
    apply (file_succeeds first.stands first.fits first.types first.isOpen).bind
    rintro ⟨nodes', errors⟩ middle leaves
    -- the next file starts where this one ends
    have behind := leaves.awaits whole
    rw [Place.declare_between] at behind
    refine (ih behind.stands behind.fits behind.types behind.isOpen).bind fun rest' after second =>
      .pure ?_
    rw [← Place.declare_between, leaves.environment_eq] at second
    have both := leaves.append second
    exact { both with types := List.forall_mem_cons.mpr both.types }

end Resolving

/-- What resolution makes of a registered unit. -/
structure Resolved.Completes (resolved : Resolved) (registered : Registered) : Prop where
  declared_eq : resolved.files.flatMap Node.declarationsAll = registered.declarations
  shape : resolved.table.SameShape registered.table
  tableTypes : resolved.table.AllTypes registered.table.BindsIn
  fileTypes : ∀ nodes ∈ resolved.files, Node.AllTypesAll registered.table.BindsIn nodes
  right : ∀ sighting ∈ unitSightings resolved.files, sighting.IsRight

theorem SymbolTable.Declares.stands_start {registered : Registered}
    (declares : registered.table.Declares registered.declarations)
    (types : registered.table.AllTypes registered.table.BindsIn) :
    (Walk.start registered.table).StandsAt registered.table (.between registered.declarations []) := by
  refine ⟨⟨?_, rfl⟩, .refl _, types, rfl⟩
  intro frame member
  obtain rfl := List.mem_singleton.mp member
  exact ⟨declares.root_lt_size, declares.globals_eq, declares.increasing, declares.placed,
    List.nil_prefix⟩

/-- Behind the last file, all global symbols were met and no scope is open. -/
theorem SymbolTable.Declares.finish_succeeds {registered : Registered}
    (declares : registered.table.Declares registered.declarations)
    (stands : walk.StandsAt registered.table
      (.between registered.declarations registered.declarations)) :
    Resolving.finish.Succeeds walk fun _ after => after = walk := by
  -- all files together declare what the global scope consists of
  have met : walk.position = walk.table.globals.length := by
    rw [stands.position_eq, SymbolTable.globals, stands.tracks.shape.children,
      ← SymbolTable.globals, declares.globals_eq]
  apply Succeeds.bind_get
  rw [stands.inner_eq, if_neg (by simp), if_pos met]
  exact .pure rfl

/-- A unit whose declarations lie in its table is resolved without a fault. -/
theorem Resolved.exists_completes {registered : Registered}
    (declares : registered.table.Declares registered.declarations)
    (tableTypes : registered.table.AllTypes registered.table.BindsIn)
    (fileTypes : ∀ nodes ∈ registered.files, Node.AllTypesAll registered.table.BindsIn nodes)
    (isOpen : ∀ sighting ∈ unitSightings registered.files, sighting.IsOpen) :
    ∃ resolved, ofRegistered registered = .ok resolved ∧ resolved.Completes registered := by
  have stands := declares.stands_start tableTypes
  have fits : (Place.between registered.declarations []).Fits registered.declarations :=
    List.prefix_refl _
  have whole : Succeeds (do
        let files ← registered.files.mapM Resolving.file
        Resolving.finish
        return files) (.start registered.table) fun result after =>
      after.Leaves registered.table (.between registered.declarations []) registered.declarations
        ((result.map Prod.fst).flatMap Node.declarationsAll)
        (∀ nodes ∈ result.map Prod.fst, Node.AllTypesAll registered.table.BindsIn nodes)
        (fileSightings (Place.between registered.declarations []).environment
          (result.map Prod.fst)) := by
    refine (files_succeed stands fits fileTypes isOpen).bind fun files after leaves => ?_
    apply (declares.finish_succeeds leaves.stands).bind
    rintro _ _ rfl
    exact .pure leaves
  -- what `ofRegistered` returns is read off the walk that has finished
  obtain ⟨files, after, run, leaves⟩ := whole
  refine ⟨⟨files.map Prod.fst, after.table, files.flatMap Prod.snd⟩, ?_, ?_⟩
  · rw [ofRegistered, run]
    rfl
  · refine ⟨leaves.declared_eq, leaves.stands.tracks.shape, leaves.stands.tracks.types,
      leaves.types, ?_⟩
    have right := leaves.right
    rw [unitSightings, leaves.declared_eq]
    exact right

/-- Nothing stands in the way of a unit in whose types no names are resolved yet. -/
theorem Registered.binds_ofFiles {files : List (List Node)}
    (unbound : ∀ nodes ∈ files, Node.AllTypesAll Ty.IsUnbound nodes) :
    (ofFiles files).table.AllTypes (ofFiles files).table.BindsIn ∧
      (∀ nodes ∈ (ofFiles files).files, Node.AllTypesAll (ofFiles files).table.BindsIn nodes) ∧
      ∀ sighting ∈ unitSightings (ofFiles files).files, sighting.IsOpen := by
  obtain ⟨table, trees⟩ := allTypes_ofFiles unbound
  have binds : ∀ type, Ty.IsUnbound type → (ofFiles files).table.BindsIn type :=
    fun type known => known.mono fun path symbol nothing index bound => by simp [nothing] at bound
  exact ⟨fun index symbol found type known => binds type (table index symbol found type known),
    fun nodes member => Node.allTypesAll_mono (trees nodes member) binds,
    fun sighting member => (records_files trees _ sighting member).isOpen⟩

theorem Resolved.exists_completes_ofFiles {files : List (List Node)}
    (unbound : ∀ nodes ∈ files, Node.AllTypesAll Ty.IsUnbound nodes) :
    ∃ resolved, ofRegistered (Registered.ofFiles files) = .ok resolved ∧
      resolved.Completes (Registered.ofFiles files) := by
  obtain ⟨tableTypes, fileTypes, isOpen⟩ := Registered.binds_ofFiles unbound
  exact exists_completes (Registered.declares_declarations files) tableTypes fileTypes isOpen

/-- The trees of some source files, whether anything was wrong with them or not. -/
def treesOf (files : List File) : List (List Node) := files.map fun file => (Parsed.ofFile file).nodes

theorem isUnbound_treesOf (files : List File) :
    ∀ nodes ∈ treesOf files, Node.AllTypesAll Ty.IsUnbound nodes := by
  intro nodes member
  obtain ⟨file, _, rfl⟩ := List.mem_map.mp member
  rw [Node.allTypesAll_iff]
  exact fun node present => (Parsed.isWellFormed_nodes file _ node present).allTypes.mono
    fun _ => Ty.IsWritten.unbound

/-- Whatever source files are registered, the table is finished, and their resolution follows the
registration without a fault: every walk meets the symbols that were given to the declarations, every
body and the unit as a whole are left with all symbols met, and everything that is looked up is
there. -/
theorem resolution_never_faults (files : List File) :
    (((treesOf files).mapM Registration.file).run .start).2.finish =
        .ok (Registered.ofFiles (treesOf files)).table ∧
    ∃ resolved, Resolved.ofRegistered (Registered.ofFiles (treesOf files)) = .ok resolved ∧
      resolved.files.flatMap Node.declarationsAll =
        (Registered.ofFiles (treesOf files)).declarations ∧
      resolved.table.SameShape (Registered.ofFiles (treesOf files)).table := by
  obtain ⟨resolved, run, completes⟩ := Resolved.exists_completes_ofFiles (isUnbound_treesOf files)
  have finished := Registration.finish_files (treesOf files)
  exact ⟨finished, resolved, run, completes.declared_eq, completes.shape⟩

end Cadence
