import Cadence.Proofs.Resolution.Scoping
import Cadence.Proofs.Symbol.Placement
import Cadence.Resolution.Basic
import Mathlib.Data.List.Forall2

/-!
# Places of a walk

A place between the declarations of a unit, with the scopes of a table that are open there. A place
says where the cursors of a walk have to be, and what its names denote. The two fit together: what
is found through the cursors is the symbol of the declaration that the name denotes.
-/
namespace Cadence

/-- Whether a symbol can be referred to by a name. -/
def SymbolTable.answers (table : SymbolTable) (name : String) (index : SymbolIndex) : Bool :=
  table.name? index = some name

/-- A table has the symbol that was found for a declaration, if there is one. -/
inductive SymbolTable.Matches (table : SymbolTable) : Option Declaration → Option SymbolIndex → Prop
  | nothing : Matches table none none
  | found {declaration : Declaration} {scope index : SymbolIndex} :
      declaration.heading.IsAt table scope index → Matches table (some declaration) (some index)

namespace SymbolTable.Matches

variable {table : SymbolTable} {scope : SymbolIndex}

theorem or {first second : Option Declaration} {found further : Option SymbolIndex}
    (left : table.Matches first found) (right : table.Matches second further) :
    table.Matches (first.or second) (found.or further) := by
  cases left with
  | nothing => exact right
  | found same => exact .found same

theorem find_own (declaration : Declaration) {index : SymbolIndex}
    (own : declaration.heading.IsAt table scope index) (name : String) :
    table.Matches (first? name [declaration]) ([index].find? (table.answers name)) := by
  by_cases named : declaration.heading.name = name
  · simpa [first?, answers, Declaration.name, own.name?, named] using Matches.found own
  · simpa [first?, answers, Declaration.name, own.name?, named] using Matches.nothing

/-- The only symbol of a declaration that has a name is its own one. -/
theorem find_entries {declaration : Declaration} (inside : declaration.IsIn table scope)
    (name : String) :
    table.Matches (first? name [declaration]) (declaration.entries.find? (table.answers name)) ∧
      table.Matches (first? name [declaration])
        (declaration.entries.reverse.find? (table.answers name)) := by
  cases inside with
  | @simple _ _ heading own =>
    have plain := find_own (.simple heading) own name
    rw [entries_simple own.1]
    exact ⟨plain, plain⟩
  | @withBody _ _ heading content own body =>
    have plain := find_own (.withBody heading content) own name
    -- behind the own symbol lies the scope of the body, which has no name
    have unnamed := body.name?
    rw [entries_withBody own.1]
    constructor
    · simpa [List.find?_cons, answers, unnamed] using plain
    · simpa [List.find?_cons, answers, unnamed] using plain

/-- The first symbol that has a name is that of the first declaration of the name. -/
theorem find_first {declared : List Declaration}
    (inside : ∀ declaration ∈ declared, declaration.IsIn table scope) (name : String) :
    table.Matches (first? name declared) ((entriesOf declared).find? (table.answers name)) := by
  induction declared with
  | nil => exact .nothing
  | cons first rest ih =>
    simp only [List.mem_cons, forall_eq_or_imp] at inside
    rw [← List.singleton_append, first?_append, List.singleton_append, entriesOf_cons,
      List.find?_append]
    exact (find_entries inside.1 name).1.or (ih inside.2)

theorem find_latest {declared : List Declaration}
    (inside : ∀ declaration ∈ declared, declaration.IsIn table scope) (name : String) :
    table.Matches (latest? name declared) ((entriesOf declared).reverse.find? (table.answers name)) := by
  induction declared with
  | nil => exact .nothing
  | cons first rest ih =>
    simp only [List.mem_cons, forall_eq_or_imp] at inside
    -- in reverse order, the symbols of the rest come first
    rw [← List.singleton_append, latest?_append, List.singleton_append, entriesOf_cons,
      List.reverse_append, List.find?_append]
    exact (ih inside.2).or (find_entries inside.1 name).2

end SymbolTable.Matches

/-- An open scope in which some declarations were made and others are still to come. -/
structure Frame where
  scope : SymbolIndex
  /-- All declarations of the scope. -/
  content : List Declaration
  /-- Those that were made. -/
  declared : List Declaration

namespace Frame

/-- Where the cursor of the scope has to be. -/
def cursor (frame : Frame) : Cursor := ⟨frame.scope, (entriesOf frame.declared).length⟩

/-- Behind some further declarations. -/
def declare (frame : Frame) (declared : List Declaration) : Frame :=
  { frame with declared := frame.declared ++ declared }

/-- The scope is in a table and consists of the declarations. -/
structure IsIn (frame : Frame) (table : SymbolTable) : Prop where
  scope_lt_size : frame.scope.value < table.size
  children_eq : table.children frame.scope = entriesOf frame.content
  increasing : (entriesOf frame.content).Pairwise (·.value < ·.value)
  placed : ∀ declaration ∈ frame.content, declaration.IsIn table frame.scope
  declared_initial : frame.declared <+: frame.content

/-- Some declarations are the next ones of the scope. -/
def Fits (frame : Frame) (declared : List Declaration) : Prop :=
  frame.declared ++ declared <+: frame.content

theorem Fits.of_append {frame : Frame} {first second : List Declaration}
    (fits : frame.Fits (first ++ second)) : frame.Fits first ∧ (frame.declare first).Fits second := by
  rw [Fits, ← List.append_assoc] at fits
  exact ⟨(List.prefix_append _ _).trans fits, fits⟩

/-- What a cursor of the scope shows are the declarations that were made. -/
structure Shows (frame : Frame) (table : SymbolTable) (cursor : Cursor) : Prop where
  scope_eq : cursor.scope = frame.scope
  position_le : cursor.position ≤ (entriesOf frame.content).length
  latest : ∀ name, table.Matches (latest? name frame.declared)
    ((((table.children cursor.scope).take cursor.position).reverse).find? (table.answers name))
  names_eq : ((table.children cursor.scope).take cursor.position).reverse.filterMap table.name? =
    (frame.declared.map Declaration.name).reverse

namespace IsIn

variable {table : SymbolTable} {frame : Frame} (inside : frame.IsIn table)
include inside

theorem declare {declared : List Declaration} (fits : frame.Fits declared) :
    (frame.declare declared).IsIn table :=
  { inside with declared_initial := fits }

theorem child_lt_size {child : SymbolIndex} (member : child ∈ table.children frame.scope) :
    child.value < table.size := by
  rw [inside.children_eq] at member
  obtain ⟨declaration, present, own⟩ := List.mem_flatMap.mp member
  exact (inside.placed declaration present).entries_lt_size own

theorem placed_declared :
    ∀ declaration ∈ frame.declared, declaration.IsIn table frame.scope :=
  fun declaration member => inside.placed declaration (inside.declared_initial.subset member)

theorem shows_cursor : frame.Shows table frame.cursor := by
  obtain ⟨rest, all⟩ := inside.declared_initial
  have children := inside.children_eq
  rw [← all, entriesOf_append] at children
  refine ⟨rfl, ?_, fun name => ?_, ?_⟩
  · simp [cursor, ← all]
  -- what is in front of the cursor are the symbols of the declarations that were made
  · simp only [cursor, children, List.take_left']
    exact SymbolTable.Matches.find_latest inside.placed_declared name
  · simp only [cursor, children, List.take_left', List.filterMap_reverse]
    rw [filterMap_name?_entriesOf inside.placed_declared]

/-- The next declaration is found where the cursor is. -/
theorem placed_next {next : Declaration} {rest : List Declaration}
    (fits : frame.Fits (next :: rest)) : next.IsIn table frame.scope :=
  inside.placed next (fits.subset (by simp))

/-- What follows the symbols of the declarations that were made. -/
theorem children_drop {next : Declaration} {rest : List Declaration}
    (fits : frame.Fits (next :: rest)) :
    ∃ behind, table.children frame.scope = entriesOf frame.declared ++ (next.entries ++ behind) := by
  obtain ⟨behind, all⟩ := fits
  refine ⟨entriesOf rest ++ entriesOf behind, ?_⟩
  rw [inside.children_eq, ← all]
  simp

/-- As soon as the own symbol of a declaration is met, the declaration is shown. -/
theorem shows_next {next : Declaration} {rest : List Declaration}
    (fits : frame.Fits (next :: rest)) :
    (frame.declare [next]).Shows table
      ⟨frame.scope, (entriesOf frame.declared).length + 1⟩ := by
  obtain ⟨behind, children⟩ := inside.children_drop fits
  have placed := inside.placed_next fits
  obtain ⟨index, own⟩ := placed.heading_isAt
  have taken : (table.children frame.scope).take ((entriesOf frame.declared).length + 1) =
      entriesOf frame.declared ++ [index] := by
    rw [children, List.take_append, List.take_of_length_le (by omega)]
    -- a declaration with a body has a second symbol, which the cursor has not passed yet
    cases placed with
    | simple found =>
      obtain rfl := Option.some.inj (own.1.symm.trans found.1)
      simp [entries_simple found.1]
    | withBody found =>
      obtain rfl := Option.some.inj (own.1.symm.trans found.1)
      simp [entries_withBody found.1]
  refine ⟨rfl, ?_, fun name => ?_, ?_⟩
  · have lengths := congrArg List.length taken
    rw [inside.children_eq] at lengths
    simp only [List.length_take, List.length_append, List.length_singleton] at lengths
    simp only [Frame.declare]
    omega
  · simp only [taken, List.reverse_append, List.find?_append, Frame.declare, latest?_append]
    exact (SymbolTable.Matches.find_own next own name).or
      (SymbolTable.Matches.find_latest inside.placed_declared name)
  · have named := filterMap_name?_entriesOf inside.placed_declared
    simp [taken, named, own.name?, Frame.declare, Declaration.name]

end IsIn

end Frame

/-- The open scopes at a place between the declarations of a unit. -/
structure Place where
  /-- The scopes of the bodies around the place, innermost first. -/
  inner : List Frame
  /-- The global scope. -/
  root : Frame

namespace Place

/-- All open scopes, innermost first. -/
def frames (place : Place) : List Frame := place.inner ++ [place.root]

def innermost (place : Place) : Frame := place.inner.headD place.root

/-- Behind some further declarations. -/
def declare (place : Place) (declared : List Declaration) : Place :=
  match place.inner with
  | [] => { place with root := place.root.declare declared }
  | frame :: outer => { place with inner := frame.declare declared :: outer }

/-- At the start of a body. -/
def enter (place : Place) (scope : SymbolIndex) (content : List Declaration) : Place :=
  { place with inner := ⟨scope, content, []⟩ :: place.inner }

/-- The declarations around the place. -/
def environment (place : Place) : Environment :=
  ⟨place.inner.map Frame.declared, place.root.declared, place.root.content⟩

/-- Where the cursors of a walk have to be. -/
def cursors (place : Place) : List Cursor := place.frames.map Frame.cursor

/-- All open scopes are in a table. -/
structure IsIn (place : Place) (table : SymbolTable) : Prop where
  frames : ∀ frame ∈ place.frames, frame.IsIn table
  root_eq : place.root.scope = SymbolTable.root

/-- Some declarations are the next ones of the innermost scope. -/
def Fits (place : Place) (declared : List Declaration) : Prop := place.innermost.Fits declared

@[simp]
theorem innermost_declare (place : Place) (declared : List Declaration) :
    (place.declare declared).innermost = place.innermost.declare declared := by
  obtain ⟨inner, root⟩ := place
  cases inner <;> rfl

@[simp]
theorem environment_declare (place : Place) (declared : List Declaration) :
    (place.declare declared).environment = place.environment.declare declared := by
  obtain ⟨inner, root⟩ := place
  cases inner <;> rfl

@[simp]
theorem declare_nil (place : Place) : place.declare [] = place := by
  obtain ⟨inner, root⟩ := place
  cases inner <;> simp [declare, Frame.declare]

theorem declare_append (place : Place) (first second : List Declaration) :
    place.declare (first ++ second) = (place.declare first).declare second := by
  obtain ⟨inner, root⟩ := place
  cases inner <;> simp [declare, Frame.declare]

theorem frames_eq (place : Place) : place.frames = place.innermost :: place.frames.tail := by
  obtain ⟨inner, root⟩ := place
  cases inner <;> rfl

theorem frames_declare (place : Place) (declared : List Declaration) :
    (place.declare declared).frames = place.innermost.declare declared :: place.frames.tail := by
  obtain ⟨inner, root⟩ := place
  cases inner <;> rfl

theorem Fits.of_append {place : Place} {first second : List Declaration}
    (fits : place.Fits (first ++ second)) : place.Fits first ∧ (place.declare first).Fits second := by
  obtain ⟨left, right⟩ := Frame.Fits.of_append fits
  exact ⟨left, by rwa [Fits, innermost_declare]⟩

namespace IsIn

variable {place : Place} {table : SymbolTable} (inside : place.IsIn table)
include inside

theorem innermost : place.innermost.IsIn table :=
  inside.frames _ (by rw [place.frames_eq]; exact List.mem_cons_self)

theorem declare {declared : List Declaration} (fits : place.Fits declared) :
    (place.declare declared).IsIn table := by
  refine ⟨?_, ?_⟩
  · rw [place.frames_declare]
    intro frame member
    rcases List.mem_cons.mp member with rfl | old
    · exact inside.innermost.declare fits
    · apply inside.frames frame
      rw [place.frames_eq]
      exact List.mem_cons_of_mem _ old
  · obtain ⟨inner, root⟩ := place
    cases inner <;> exact inside.root_eq

/-- A body is entered behind the declaration that it belongs to. -/
theorem enter {scope index : SymbolIndex} {content : List Declaration}
    (body : table.HasBody scope index content)
    (placed : ∀ declaration ∈ content, declaration.IsIn table index) :
    (place.enter index content).IsIn table := by
  refine ⟨?_, inside.root_eq⟩
  intro frame member
  rcases List.mem_cons.mp member with rfl | old
  · exact ⟨body.lt_size, body.children, body.2, placed, List.nil_prefix⟩
  · exact inside.frames frame old

end IsIn

end Place

/-- What a lookup through some cursors finds is what names denote, and all it looks at is there. -/
structure SymbolTable.Sees (table : SymbolTable) (cursors : List Cursor) (around : Environment) :
    Prop where
  inRange : ∀ cursor ∈ cursors, cursor.scope.value < table.size ∧
    cursor.position ≤ (table.children cursor.scope).length ∧
      ∀ child ∈ table.children cursor.scope, child.value < table.size
  denotes : ∀ name, table.Matches (around.denoted? name)
    (((cursors.flatMap fun cursor =>
        ((table.children cursor.scope).take cursor.position).reverse).find? (table.answers name)).or
      (table.lookupGlobal? name))
  names_eq : ((cursors.flatMap fun cursor =>
      ((table.children cursor.scope).take cursor.position).reverse) ++ table.globals).filterMap
        table.name? = around.names

theorem first?_eq_none_of_latest {name : String} {declared : List Declaration}
    (nothing : latest? name declared = none) : first? name declared = none := by
  simpa [latest?, first?] using nothing

/-- What is found in the open scopes apart from the global declarations that are still to come. -/
theorem SymbolTable.Matches.find_shown {table : SymbolTable} {frames : List Frame}
    {cursors : List Cursor}
    (shown : List.Forall₂ (fun frame cursor => frame.Shows table cursor) frames cursors)
    (name : String) :
    table.Matches ((frames.map Frame.declared).findSome? (latest? name))
      ((cursors.flatMap fun cursor =>
        ((table.children cursor.scope).take cursor.position).reverse).find? (table.answers name)) := by
  induction shown with
  | nil => exact .nothing
  | cons first _ ih =>
    rw [List.flatMap_cons, List.find?_append, List.map_cons, List.findSome?_cons]
    -- the first scope that has the name hides it in all scopes around
    have both := (first.latest name).or ih
    cases found : latest? name _ with
    | none => rwa [found] at both
    | some declaration => rwa [found] at both

theorem SymbolTable.Matches.find_global {table : SymbolTable} {frame : Frame}
    (inside : frame.IsIn table) (isRoot : frame.scope = SymbolTable.root) (name : String) :
    table.Matches (first? name frame.content) (table.lookupGlobal? name) := by
  have children := inside.children_eq
  rw [isRoot] at children
  rw [SymbolTable.lookupGlobal?, SymbolTable.globals, children]
  exact find_first inside.placed name

/-- The names of what is shown are those of the declarations that were made. -/
theorem Frame.Shows.filterMap_name? {table : SymbolTable} {frames : List Frame} {cursors : List Cursor}
    (shown : List.Forall₂ (fun frame cursor => frame.Shows table cursor) frames cursors) :
    (cursors.flatMap fun cursor =>
        ((table.children cursor.scope).take cursor.position).reverse).filterMap table.name? =
      (frames.map Frame.declared).flatMap fun body => (body.map Declaration.name).reverse := by
  induction shown with
  | nil => rfl
  | cons first _ ih =>
    rw [List.flatMap_cons, List.filterMap_append, first.names_eq, ih, List.map_cons, List.flatMap_cons]

/-- Cursors that show the frames of a place let a walk see what surrounds it. -/
theorem Place.IsIn.sees {place : Place} {table : SymbolTable} (inside : place.IsIn table)
    {cursors : List Cursor}
    (shown : List.Forall₂ (fun frame cursor => frame.Shows table cursor) place.frames cursors) :
    table.Sees cursors place.environment := by
  refine ⟨fun cursor member => ?_, fun name => ?_, ?_⟩
  -- every cursor belongs to the frame at the same depth
  · obtain ⟨position, bound, rfl⟩ := List.getElem_of_mem member
    have sameLength := shown.length_eq
    have shows := shown.get (i := position) (by omega) bound
    have frame := inside.frames _ (List.getElem_mem (l := place.frames) (n := position) (by omega))
    simp only [List.get_eq_getElem] at shows
    rw [shows.scope_eq]
    refine ⟨frame.scope_lt_size, ?_, fun child => frame.child_lt_size⟩
    rw [frame.children_eq]
    exact shows.position_le
  · have visible := SymbolTable.Matches.find_shown shown name
    have global := SymbolTable.Matches.find_global
      (inside.frames place.root (by simp [Place.frames])) inside.root_eq name
    have both := visible.or global
    -- a global declaration that was made is shown by the outermost cursor, so that the search
    -- through all of them only counts for those to come
    suffices same : place.environment.denoted? name =
        ((place.frames.map Frame.declared).findSome? (latest? name)).or
          (first? name place.root.content) by rwa [same]
    obtain ⟨rest, all⟩ := (inside.frames place.root (by simp [Place.frames])).declared_initial
    simp only [Environment.denoted?, Place.environment, Option.orElse_eq_orElse,
      Option.orElse_eq_or, Place.frames, List.map_append, List.map_cons, List.map_nil,
      List.findSome?_append, List.findSome?_cons, List.findSome?_nil]
    rw [← all, List.drop_left, first?_append, Option.or_assoc]
    cases found : latest? name place.root.declared with
    | none => simp [first?_eq_none_of_latest found]
    | some declaration => simp
  · have root := inside.frames place.root (by simp [Place.frames])
    have children := root.children_eq
    rw [inside.root_eq] at children
    rw [List.filterMap_append, Frame.Shows.filterMap_name? shown, SymbolTable.globals, children,
      filterMap_name?_entriesOf root.placed]
    simp [Environment.names, Place.environment, Place.frames]

/-- Behind one more symbol. -/
def Cursor.next (cursor : Cursor) : Cursor := { cursor with position := cursor.position + 1 }

namespace Place

/-- The cursors of the scopes around the innermost one. -/
def outerCursors (place : Place) : List Cursor := place.frames.tail.map Frame.cursor

theorem cursors_eq (place : Place) : place.cursors = place.innermost.cursor :: place.outerCursors := by
  rw [cursors, frames_eq, List.map_cons, outerCursors]

theorem cursors_declare (place : Place) (declared : List Declaration) :
    (place.declare declared).cursors =
      (place.innermost.declare declared).cursor :: place.outerCursors := by
  rw [cursors, frames_declare, List.map_cons, outerCursors]

theorem cursors_enter (place : Place) (scope : SymbolIndex) (content : List Declaration) :
    (place.enter scope content).cursors = ⟨scope, 0⟩ :: place.cursors := rfl

theorem cursors_declare_simple (place : Place) {heading : Heading} {index : SymbolIndex}
    (known : heading.symbol = some index) :
    (place.declare [.simple heading]).cursors = place.innermost.cursor.next :: place.outerCursors := by
  simp [cursors_declare, Frame.cursor, Frame.declare, Cursor.next, entries_simple known]

theorem cursors_declare_withBody (place : Place) {heading : Heading} {index : SymbolIndex}
    {content : List Declaration} (known : heading.symbol = some index) :
    (place.declare [.withBody heading content]).cursors =
      place.innermost.cursor.next.next :: place.outerCursors := by
  simp [cursors_declare, Frame.cursor, Frame.declare, Cursor.next, entries_withBody known]

namespace IsIn

variable {place : Place} {table : SymbolTable} (inside : place.IsIn table)
include inside

theorem sees_cursors : table.Sees place.cursors place.environment := by
  apply inside.sees
  rw [Place.cursors, List.forall₂_map_right_iff, List.forall₂_same]
  exact fun frame member => (inside.frames frame member).shows_cursor

/-- In front of the body of a declaration, the declaration itself is seen already. -/
theorem sees_next {next : Declaration} {rest : List Declaration} (fits : place.Fits (next :: rest)) :
    table.Sees (place.innermost.cursor.next :: place.outerCursors)
      (place.environment.declare [next]) := by
  have whole : place.Fits ([next] ++ rest) := fits
  have first := whole.of_append.1
  rw [← environment_declare]
  apply (inside.declare first).sees
  rw [place.frames_declare, outerCursors]
  refine .cons (inside.innermost.shows_next fits) ?_
  rw [List.forall₂_map_right_iff, List.forall₂_same]
  intro frame member
  refine (inside.frames frame ?_).shows_cursor
  rw [place.frames_eq]
  exact List.mem_cons_of_mem _ member

theorem placed_next {next : Declaration} {rest : List Declaration}
    (fits : place.Fits (next :: rest)) : next.IsIn table place.innermost.scope :=
  inside.innermost.placed_next fits

/-- The symbol of the next declaration is found where the innermost cursor is. -/
theorem child_next {next : Declaration} {rest : List Declaration} {index : SymbolIndex}
    {behind : List SymbolIndex} (fits : place.Fits (next :: rest))
    (own : next.entries = index :: behind) :
    (table.children place.innermost.scope)[place.innermost.cursor.position]? = some index := by
  obtain ⟨further, children⟩ := inside.innermost.children_drop fits
  simp [children, own, Frame.cursor]

/-- Behind the symbol of the next declaration comes the scope of its body. -/
theorem child_body {heading : Heading} {content rest : List Declaration} {index : SymbolIndex}
    (fits : place.Fits (.withBody heading content :: rest)) (own : heading.symbol = some index) :
    (table.children place.innermost.scope)[place.innermost.cursor.next.position]? =
      some index.next := by
  obtain ⟨further, children⟩ := inside.innermost.children_drop fits
  simp [children, entries_withBody own, Frame.cursor, Cursor.next]

theorem bodyScope?_next {heading : Heading} {content rest : List Declaration} {index : SymbolIndex}
    (fits : place.Fits (.withBody heading content :: rest))
    (own : heading.IsAt table place.innermost.scope index)
    (body : table.HasBody place.innermost.scope index.next content) :
    table.bodyScope? index = some index.next := by
  obtain ⟨further, children⟩ := inside.innermost.children_drop fits
  rw [entries_withBody own.1] at children
  have increasing := inside.innermost.increasing
  rw [← inside.innermost.children_eq] at increasing
  exact SymbolTable.bodyScope?_eq own body children increasing

/-- Behind the next declaration, its body can be entered in the scope that follows its symbol. -/
theorem body_next {heading : Heading} {content rest : List Declaration} {index : SymbolIndex}
    (fits : place.Fits (.withBody heading content :: rest))
    (own : heading.IsAt table place.innermost.scope index) :
    table.HasBody place.innermost.scope index.next content ∧
      (place.declare [.withBody heading content]).IsIn table ∧
        ((place.declare [.withBody heading content]).enter index.next content).IsIn table := by
  obtain _ | @⟨_, index', _, _, own', body, placed⟩ := inside.placed_next fits
  -- the scope is that of the given symbol, since a declaration has one symbol
  obtain rfl : index = index' := Option.some.inj (own.1.symm.trans own'.1)
  have whole : place.Fits ([.withBody heading content] ++ rest) := fits
  have declared := inside.declare whole.of_append.1
  exact ⟨body, declared, declared.enter body placed⟩

end IsIn

end Place

end Cadence
