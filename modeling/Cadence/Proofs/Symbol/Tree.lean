import Cadence.Proofs.Symbol.Operations
import Mathlib.Data.List.Basic

/-!
# Symbol tables are trees

Whatever sequence of operations builds a symbol table, its symbols form a tree in which a walk from
the root that visits each scope in front of what belongs to it meets them in the order of their
indices. This rests on one observation: a new symbol goes into a scope that is still open, and each
open scope is the last symbol of the one around it, so that the new symbol comes last in the walk.
-/
namespace Cadence

open Source (Span)

namespace SymbolTable

/-- The scope that a symbol belongs to. -/
def parent? (table : SymbolTable) (index : SymbolIndex) : Option SymbolIndex :=
  (table.symbol? index).bind Symbol.parent

/-- A symbol and what belongs to it, each symbol in front of what belongs to it. No symbol lies
deeper in the tree than there are symbols, which `height` bounds. -/
def preorder (table : SymbolTable) : (height : Nat) → SymbolIndex → List SymbolIndex
  | 0, _ => []
  | height + 1, index =>
    if index.value < table.size then index :: (table.children index).flatMap (table.preorder height)
    else []

/-- The number of scopes that a symbol lies in. -/
def depth (table : SymbolTable) (index : SymbolIndex) : Nat :=
  match table.parent? index with
  | some scope => if scope.value < index.value then table.depth scope + 1 else 0
  | none => 0
  termination_by index.value

/-- The symbols other than the first one belong to scopes with smaller indices, and each scope has
those that belong to it, in the order of their indices. -/
structure IsTree (table : SymbolTable) : Prop where
  root_lt_size : 0 < table.size
  parent_root : table.parent? root = none
  parent_lt : ∀ index : SymbolIndex, index ≠ root → index.value < table.size →
    ∃ scope, table.parent? index = some scope ∧ scope.value < index.value
  mem_children : ∀ scope index, index ∈ table.children scope ↔ table.parent? index = some scope
  increasing : ∀ scope, (table.children scope).Pairwise (·.value < ·.value)

theorem parent?_eq (table : SymbolTable) (index : SymbolIndex) :
    table.parent? index = (table.shape? index).bind Symbol.parent := by
  cases found : table.symbol? index <;> simp [parent?, shape?, found, Symbol.withoutType]

theorem children_of_size_le {table : SymbolTable} {index : SymbolIndex}
    (outside : table.size ≤ index.value) : table.children index = [] := by
  have missing : table.symbol? index = none := Array.getElem?_eq_none outside
  simp [children, missing]

theorem lt_size_of_parent? {table : SymbolTable} {index scope : SymbolIndex}
    (known : table.parent? index = some scope) : index.value < table.size := by
  by_contra outside
  have missing : table.symbol? index = none := Array.getElem?_eq_none (Nat.le_of_not_lt outside)
  simp [parent?, missing] at known

namespace IsTree

variable {table : SymbolTable} (tree : table.IsTree)
include tree

theorem lt_of_parent? {index scope : SymbolIndex} (known : table.parent? index = some scope) :
    scope.value < index.value := by
  have inside := lt_size_of_parent? known
  have other : index ≠ root := by
    rintro rfl
    simp [tree.parent_root] at known
  obtain ⟨owner, found, less⟩ := tree.parent_lt index other inside
  rw [known] at found
  exact Option.some.inj found ▸ less

theorem lt_of_mem_children {scope index : SymbolIndex} (member : index ∈ table.children scope) :
    scope.value < index.value ∧ index.value < table.size :=
  have known := (tree.mem_children scope index).mp member
  ⟨tree.lt_of_parent? known, lt_size_of_parent? known⟩

theorem depth_eq {index scope : SymbolIndex} (known : table.parent? index = some scope) :
    table.depth index = table.depth scope + 1 := by
  rw [depth, known]
  exact if_pos (tree.lt_of_parent? known)

/-- Heights that leave room for all symbols behind one make no difference. -/
theorem preorder_congr {left right : Nat} {index : SymbolIndex}
    (first : table.size - index.value ≤ left) (second : table.size - index.value ≤ right) :
    table.preorder left index = table.preorder right index := by
  induction left generalizing right index with
  | zero =>
    cases right with
    | zero => rfl
    | succ right => rw [preorder, preorder, if_neg (by omega)]
  | succ left ih =>
    cases right with
    | zero => rw [preorder, preorder, if_neg (by omega)]
    | succ right =>
      rw [preorder, preorder]
      split
      next inside =>
        refine congrArg _ (List.flatMap_congr fun child member => ?_)
        have bounds := tree.lt_of_mem_children member
        exact ih (by omega) (by omega)
      next => rfl

/-- A walk over a symbol of the table starts with it and goes on with what belongs to it. -/
theorem preorder_size {index : SymbolIndex} (inside : index.value < table.size) :
    table.preorder table.size index =
      index :: (table.children index).flatMap (table.preorder table.size) := by
  rw [tree.preorder_congr (Nat.sub_le _ _) (Nat.le_succ_of_le (Nat.sub_le _ _)), preorder,
    if_pos inside]

end IsTree

/-- The line of a symbol, four columns further in for each scope that it lies in. -/
def row (table : SymbolTable) (index : SymbolIndex) : String :=
  ((table.symbol? index).map fun symbol =>
    String.ofList (List.replicate (table.depth index * 4) ' ') ++ line index symbol).getD ""

theorem join_append (left right : List String) :
    String.join (left ++ right) = String.join left ++ String.join right := by
  induction left with
  | nil => simp
  | cons first rest ih => simp [ih, String.append_assoc]

theorem join_flatMap {α : Type} (items : List α) (parts : α → List String) :
    String.join (items.flatMap parts) = String.join (items.map fun item => String.join (parts item)) := by
  induction items with
  | nil => rfl
  | cons first rest ih => rw [List.flatMap_cons, join_append, ih, List.map_cons, String.join_cons]

/-- The lines of a symbol and of what belongs to it stand in the order of a walk over them. -/
theorem IsTree.outline_eq {table : SymbolTable} (tree : table.IsTree) (height : Nat) (index : SymbolIndex) :
    table.outline height (table.depth index) index =
      String.join ((table.preorder height index).map table.row) := by
  induction height generalizing index with
  | zero => rfl
  | succ height ih =>
    rw [outline, preorder]
    split
    next missing =>
      have outside : ¬ index.value < table.size := by
        simpa [symbol?, size] using missing
      rw [if_neg outside]
      rfl
    next symbol found =>
      have inside : index.value < table.size := (table.lt_size_iff index).mpr (by simp [shape?, found])
      have lists : symbol.children = table.children index := by simp [children, found]
      rw [if_pos inside, List.map_cons, String.join_cons, List.map_flatMap, join_flatMap, lists, row, found]
      congr 2
      refine List.map_congr_left fun child member => ?_
      rw [← ih, tree.depth_eq ((tree.mem_children index child).mp member)]

/-- The symbols of the global scope are global and all others local. -/
def HasLocality (table : SymbolTable) : Prop :=
  ∀ index symbol scope, table.symbol? index = some symbol → symbol.parent = some scope →
    symbol.kind.isGlobal = decide (scope = root) ∧ symbol.kind.isLocal = decide (scope ≠ root)

theorem hasLocality_iff (table : SymbolTable) :
    table.HasLocality ↔ ∀ index entry scope, table.shape? index = some entry →
      entry.parent = some scope →
        entry.kind.isGlobal = decide (scope = root) ∧ entry.kind.isLocal = decide (scope ≠ root) := by
  constructor
  · intro placed index entry scope found
    obtain ⟨symbol, present, rfl⟩ := symbol?_of_shape? found
    exact placed index symbol scope present
  · intro placed index symbol scope present
    exact placed index symbol.withoutType scope (by rw [shape?, present]; rfl)

/-- Each of some open scopes, innermost first, is the last symbol of the one around it. -/
def AreLast (table : SymbolTable) : List SymbolIndex → Prop
  | [] => True
  | scope :: outer =>
    (table.children (outer.headD root)).getLast? = some scope ∧ table.AreLast outer

theorem AreLast.congr {left right : SymbolTable} {scopes : List SymbolIndex}
    (last : left.AreLast scopes)
    (same : ∀ around ∈ root :: scopes.tail, right.children around = left.children around) :
    right.AreLast scopes := by
  induction scopes with
  | nil => trivial
  | cons scope outer ih =>
    have next : right.children (outer.headD root) = left.children (outer.headD root) :=
      same _ (by cases outer <;> simp)
    refine ⟨next ▸ last.1, ih last.2 fun around member => same around ?_⟩
    rcases List.mem_cons.mp member with rfl | further
    · exact List.mem_cons_self
    · exact List.mem_cons_of_mem _ (List.mem_of_mem_tail further)

theorem AreLast.of_append {table : SymbolTable} {before outer : List SymbolIndex}
    (last : table.AreLast (before ++ outer)) : table.AreLast outer := by
  induction before with
  | nil => exact last
  | cons scope before ih => exact ih last.2

namespace IsTree

variable {table : SymbolTable} (tree : table.IsTree)
include tree

/-- Scopes lie in front of all that are open within them. -/
theorem lt_of_areLast {scope : SymbolIndex} {outer : List SymbolIndex}
    (last : table.AreLast (scope :: outer)) : ∀ around ∈ root :: outer, around.value < scope.value := by
  have inner {scope : SymbolIndex} {outer : List SymbolIndex}
      (last : table.AreLast (scope :: outer)) : (outer.headD root).value < scope.value :=
    (tree.lt_of_mem_children (List.mem_of_getLast? last.1)).1
  induction outer generalizing scope with
  | nil => simpa using inner last
  | cons around outer ih =>
    have below := inner last
    have others := ih last.2
    simp only [List.headD_cons, List.mem_cons, forall_eq_or_imp] at below others ⊢
    exact ⟨by omega, below, fun further member => Nat.lt_trans (others.2 further member) below⟩

theorem decreasing_of_areLast {scopes : List SymbolIndex} (last : table.AreLast scopes) :
    (scopes ++ [root]).Pairwise fun inner outer => outer.value < inner.value := by
  induction scopes with
  | nil => exact List.pairwise_singleton _ _
  | cons scope outer ih =>
    refine List.pairwise_cons.mpr ⟨fun around member => tree.lt_of_areLast last around ?_, ih last.2⟩
    simpa [or_comm] using member

theorem le_headD_of_areLast {scopes : List SymbolIndex} (last : table.AreLast scopes) :
    ∀ scope ∈ root :: scopes, scope.value ≤ (scopes.headD root).value := by
  cases scopes with
  | nil => simp
  | cons innermost outer =>
    have outside := tree.lt_of_areLast last
    simp only [List.headD_cons, List.mem_cons, forall_eq_or_imp] at outside ⊢
    exact ⟨Nat.le_of_lt outside.1, Nat.le_refl _, fun scope member => Nat.le_of_lt (outside.2 scope member)⟩

/-- A symbol in an open scope that is not the last one there is not open. -/
theorem notMem_of_sibling {before outer others : List SymbolIndex} {inner child : SymbolIndex}
    (last : table.AreLast (before ++ inner :: outer))
    (listed : table.children (outer.headD root) = others ++ [inner]) (member : child ∈ others) :
    child ∉ root :: (before ++ inner :: outer) := by
  have above := (tree.lt_of_mem_children (listed ▸ List.mem_append_left _ member)).1
  have increasing := tree.increasing (outer.headD root)
  rw [listed, List.pairwise_append] at increasing
  have below := increasing.2.2 child member inner List.mem_cons_self
  have decreasing := tree.decreasing_of_areLast last
  rw [List.append_assoc, List.pairwise_append] at decreasing
  have around := tree.le_headD_of_areLast last.of_append.2
  intro open_
  simp only [List.mem_cons, List.mem_append] at open_
  rcases open_ with rfl | within | rfl | outside
  · exact absurd (around root List.mem_cons_self) (by omega)
  · exact absurd (decreasing.2.2 child within inner List.mem_cons_self) (by omega)
  · omega
  · exact absurd (around child (List.mem_cons_of_mem _ outside)) (by omega)

/-- The scope around an open one is open as well. -/
theorem mem_of_parent_mem {scopes : List SymbolIndex} (last : table.AreLast scopes)
    {index scope : SymbolIndex} (known : table.parent? index = some scope)
    (member : index ∈ root :: scopes) : scope ∈ root :: scopes := by
  induction scopes with
  | nil =>
    obtain rfl := List.mem_singleton.mp member
    simp [tree.parent_root] at known
  | cons first outer ih =>
    rcases List.mem_cons.mp member with rfl | inside
    · simp [tree.parent_root] at known
    rcases List.mem_cons.mp inside with rfl | further
    · have around := (tree.mem_children _ _).mp (List.mem_of_getLast? last.1)
      rw [known] at around
      obtain rfl := Option.some.inj around
      cases outer <;> simp
    · rcases List.mem_cons.mp (ih last.2 (List.mem_cons_of_mem _ further)) with rfl | inside
      · exact List.mem_cons_self
      · exact List.mem_cons_of_mem _ (List.mem_cons_of_mem _ inside)

end IsTree

end SymbolTable

namespace SymbolBuilder

variable {builder : SymbolBuilder}

section Add

variable (name : String) (kind : SymbolKind) (type : Option Ty) (span : Span)

theorem IsSound.scope_ne_nextIndex (sound : builder.IsSound) : builder.scope ≠ builder.nextIndex :=
  (ne_nextIndex_of_lt sound.scope_lt_size).1

theorem children_nextIndex (builder : SymbolBuilder) :
    builder.table.children builder.nextIndex = [] :=
  SymbolTable.children_of_size_le (Nat.le_refl _)

/-- The scope that a new symbol goes into lists it last. -/
theorem children_add (sound : builder.IsSound) (scope : SymbolIndex) :
    (builder.add name kind type span).table.children scope =
      if scope = builder.scope then builder.table.children scope ++ [builder.nextIndex]
      else builder.table.children scope := by
  rw [SymbolTable.children_eq, shape?_add sound]
  by_cases new : scope = builder.nextIndex
  · subst new
    rw [if_pos rfl, if_neg sound.scope_ne_nextIndex.symm]
    exact builder.children_nextIndex.symm
  · rw [if_neg new, SymbolTable.children_eq]
    split
    next own =>
      -- the open scope is in the table
      subst own
      obtain ⟨owner, found⟩ :=
        Option.isSome_iff_exists.mp ((builder.table.lt_size_iff _).mp sound.scope_lt_size)
      simp [found]
    next => rfl

theorem parent?_add (sound : builder.IsSound) (index : SymbolIndex) :
    (builder.add name kind type span).table.parent? index =
      if index = builder.nextIndex then some builder.scope else builder.table.parent? index := by
  rw [SymbolTable.parent?_eq, shape?_add sound]
  split
  next => rfl
  next =>
    rw [SymbolTable.parent?_eq]
    split
    next => cases builder.table.shape? index <;> rfl
    next => rfl

variable (sound : builder.IsSound) (tree : builder.table.IsTree)
include sound tree

theorem isTree_add : (builder.add name kind type span).table.IsTree := by
  have size := builder.size_add name kind type span
  have parents := parent?_add name kind type span sound
  have lists := children_add name kind type span sound
  have present := sound.scope_lt_size
  have fresh : builder.table.parent? builder.nextIndex = none := by
    by_contra known
    obtain ⟨scope, known⟩ := Option.ne_none_iff_exists'.mp known
    exact Nat.lt_irrefl _ (SymbolTable.lt_size_of_parent? known)
  constructor
  case root_lt_size => omega
  case parent_root =>
    have old : SymbolTable.root ≠ builder.nextIndex := (ne_nextIndex_of_lt tree.root_lt_size).1
    rw [parents, if_neg old]
    exact tree.parent_root
  case parent_lt =>
    intro index other inside
    rw [parents]
    split
    next new => exact ⟨builder.scope, rfl, new ▸ present⟩
    next old =>
      refine tree.parent_lt index other ?_
      have differs : index.value ≠ builder.table.size := fun same => old (congrArg SymbolIndex.mk same)
      omega
  case mem_children =>
    intro scope index
    rw [parents, lists]
    by_cases new : index = builder.nextIndex
    · subst new
      rw [if_pos rfl]
      split
      next own => simp [own]
      next other =>
        rw [tree.mem_children, fresh]
        exact ⟨nofun, fun same => absurd (Option.some.inj same).symm other⟩
    · rw [if_neg new]
      split
      next => simp [new, tree.mem_children]
      next => exact tree.mem_children scope index
  case increasing =>
    intro scope
    rw [lists]
    split
    next =>
      -- the new index is greater than all in the table
      refine List.pairwise_append.mpr ⟨tree.increasing scope, List.pairwise_singleton _ _, ?_⟩
      intro child member new own
      obtain rfl := List.mem_singleton.mp own
      exact (tree.lt_of_mem_children member).2
    next => exact tree.increasing scope

variable (last : builder.table.AreLast builder.inner)
include last

/-- The scopes around the innermost open one stay as they are. -/
theorem areLast_add : (builder.add name kind type span).table.AreLast builder.inner := by
  cases known : builder.inner with
  | nil => trivial
  | cons innermost outer =>
    rw [known] at last
    refine last.congr fun around member => ?_
    have less := tree.lt_of_areLast last around member
    rw [children_add name kind type span sound, if_neg]
    rintro rfl
    simp [scope, known] at less

/-- What lies in no open scope is walked over as before. -/
theorem preorder_add_closed (index : SymbolIndex) (inside : index.value < builder.table.size)
    (closed : index ∉ SymbolTable.root :: builder.inner) :
    let grown := (builder.add name kind type span).table
    grown.preorder grown.size index = builder.table.preorder builder.table.size index := by
  intro grown
  have grownTree : grown.IsTree := isTree_add name kind type span sound tree
  have size : grown.size = builder.table.size + 1 := builder.size_add name kind type span
  induction remaining : builder.table.size - index.value using Nat.strongRecOn generalizing index with
  | ind remaining ih =>
    have other : index ≠ builder.scope := by
      rintro rfl
      exact closed (by cases known : builder.inner <;> simp [scope, known])
    rw [tree.preorder_size inside, grownTree.preorder_size (by omega),
      children_add name kind type span sound, if_neg other]
    refine congrArg _ (List.flatMap_congr fun child member => ?_)
    have bounds := tree.lt_of_mem_children member
    refine ih (builder.table.size - child.value) (by omega) child bounds.2 ?_ rfl
    -- a scope that is open lies in open ones only
    exact fun open_ => closed (tree.mem_of_parent_mem last ((tree.mem_children _ _).mp member) open_)

/-- The new symbol comes last in a walk over any scope that is open. -/
theorem preorder_add_open (before outer : List SymbolIndex) (split : builder.inner = before ++ outer) :
    let grown := (builder.add name kind type span).table
    grown.preorder grown.size (outer.headD SymbolTable.root) =
      builder.table.preorder builder.table.size (outer.headD SymbolTable.root) ++
        [builder.nextIndex] := by
  intro grown
  have grownTree : grown.IsTree := isTree_add name kind type span sound tree
  have size : grown.size = builder.table.size + 1 := builder.size_add name kind type span
  have lists : ∀ scope, grown.children scope = _ := children_add name kind type span sound
  have closed := preorder_add_closed name kind type span sound tree last
  have present := sound.scope_lt_size
  induction before using List.reverseRecOn generalizing outer with
  | nil =>
    -- the innermost scope gets the new symbol itself, in which nothing lies yet
    have own : outer.headD SymbolTable.root = builder.scope := by rw [scope, split]; rfl
    have new : grown.preorder grown.size builder.nextIndex = [builder.nextIndex] := by
      rw [grownTree.preorder_size (by rw [size]; exact Nat.lt_succ_self _), lists,
        if_neg sound.scope_ne_nextIndex.symm, builder.children_nextIndex]
      rfl
    rw [own, tree.preorder_size present, grownTree.preorder_size (by omega), lists, if_pos rfl,
      List.flatMap_append, List.flatMap_singleton, new, List.cons_append]
    congr 2
    refine List.flatMap_congr fun child member => ?_
    have bounds := tree.lt_of_mem_children member
    refine closed child bounds.2 fun open_ => ?_
    have innermost : child.value ≤ builder.scope.value := tree.le_headD_of_areLast last child open_
    omega
  | append_singleton before inner ih =>
    rw [List.append_assoc, List.singleton_append] at split
    have inside := ih (inner :: outer) split
    rw [List.headD_cons] at inside
    have innermost : inner.value ≤ builder.scope.value :=
      tree.le_headD_of_areLast last inner (by simp [split])
    rw [split] at last closed
    obtain ⟨others, listed⟩ := List.getLast?_eq_some_iff.mp last.of_append.1
    have bounds := tree.lt_of_mem_children (listed ▸ List.mem_append_right others (List.mem_singleton_self inner))
    have other : outer.headD SymbolTable.root ≠ builder.scope := by
      intro same
      rw [same] at bounds
      omega
    -- of what lies in the scope around, only the last scope is open
    have same : others.flatMap (grown.preorder grown.size) =
        others.flatMap (builder.table.preorder builder.table.size) := by
      refine List.flatMap_congr fun child member => ?_
      have present := tree.lt_of_mem_children (listed ▸ List.mem_append_left [inner] member)
      exact closed child present.2 (tree.notMem_of_sibling last listed member)
    rw [tree.preorder_size (by omega), grownTree.preorder_size (by omega), lists, if_neg other, listed,
      List.flatMap_append, List.flatMap_append, List.flatMap_singleton, List.flatMap_singleton, inside,
      same]
    simp

end Add

/-- What every builder keeps: the table is a tree whose symbols a walk meets in the order of their
indices, and the open scopes are those in which the walk ends. -/
structure GrowsTree (builder : SymbolBuilder) : Prop where
  sound : builder.IsSound
  tree : builder.table.IsTree
  last : builder.table.AreLast builder.inner
  ordered : builder.table.preorder builder.table.size SymbolTable.root =
    (List.range builder.table.size).map SymbolIndex.mk

theorem growsTree_start : start.GrowsTree where
  sound := isSound_start
  tree := by
    have parents (index : SymbolIndex) : start.table.parent? index = none := by
      obtain ⟨index⟩ := index
      cases index <;> rfl
    have lists (scope : SymbolIndex) : start.table.children scope = [] := by
      obtain ⟨scope⟩ := scope
      cases scope <;> rfl
    refine ⟨Nat.zero_lt_one, rfl, ?_, by simp [parents, lists], by simp [lists]⟩
    intro index other inside
    exact absurd (congrArg SymbolIndex.mk (Nat.lt_one_iff.mp inside)) other
  last := trivial
  ordered := rfl

namespace GrowsTree

variable (grows : builder.GrowsTree)
include grows

theorem add (name : String) (kind : SymbolKind) (type : Option Ty) (span : Span) :
    (builder.add name kind type span).GrowsTree where
  sound := by
    obtain ⟨present, scopes⟩ := grows.sound
    rw [IsSound, size_add]
    exact ⟨Nat.succ_pos _, fun scope member =>
      ⟨(scopes scope member).1, Nat.lt_succ_of_lt (scopes scope member).2⟩⟩
  tree := isTree_add name kind type span grows.sound grows.tree
  last := areLast_add name kind type span grows.sound grows.tree grows.last
  ordered := by
    have whole := preorder_add_open name kind type span grows.sound grows.tree grows.last builder.inner []
      (List.append_nil _).symm
    rw [List.headD_nil, grows.ordered] at whole
    rw [whole, size_add, List.range_succ, List.map_append]
    rfl

theorem enter (span : Span) : (builder.enter span).GrowsTree := by
  have added := grows.add "" .scope none span
  have listed := children_add "" .scope none span grows.sound builder.scope
  rw [if_pos rfl] at listed
  refine ⟨grows.sound.enter span, added.tree, ⟨?_, added.last⟩, added.ordered⟩
  exact (congrArg List.getLast? listed).trans List.getLast?_concat

theorem leave {scope : SymbolIndex} {outer : List SymbolIndex} (known : builder.inner = scope :: outer) :
    GrowsTree { builder with inner := outer } := by
  obtain ⟨sound, tree, last, ordered⟩ := grows
  rw [known] at last
  refine ⟨⟨sound.1, fun scope member => sound.2 scope ?_⟩, tree, last.2, ordered⟩
  rw [known]
  exact List.mem_cons_of_mem _ member

end GrowsTree

section Runs

variable {operations : List Operation}

theorem growsTree_build (built : build operations = .ok builder) : builder.GrowsTree := by
  apply build_induction built
  case initial => exact growsTree_start
  case step =>
    intro operations operation builder after _ grows performed
    rcases perform_cases performed with
      ⟨name, kind, type, span, rfl, rfl⟩ | ⟨span, rfl, rfl⟩ | ⟨scope, outer, rfl, known, rfl⟩
    · exact grows.add name kind type span
    · exact grows.enter span
    · exact grows.leave known

/-- A new symbol is given the locality of the scope that it goes into. -/
theorem hasLocality_add (sound : builder.IsSound) (placed : builder.table.HasLocality) (name : String)
    {kind : SymbolKind} (plain : kind.isGlobal = false ∧ kind.isLocal = false) (type : Option Ty)
    (span : Span) : (builder.add name kind type span).table.HasLocality := by
  rw [SymbolTable.hasLocality_iff] at placed ⊢
  intro index entry scope found parent
  rw [shape?_add sound] at found
  split at found
  next =>
    obtain rfl := Option.some.inj found
    obtain rfl := Option.some.inj parent
    simp only [SymbolKind.union, SymbolKind.localityIn, plain]
    split <;> simp [*]
  next =>
    split at found
    next =>
      obtain ⟨owner, known, rfl⟩ := Option.map_eq_some_iff.mp found
      exact placed index owner scope known parent
    next => exact placed index entry scope found parent

theorem hasLocality_build (built : build operations = .ok builder)
    (plain : ∀ operation ∈ operations, operation.NamesNoLocality) : builder.table.HasLocality := by
  revert plain
  apply build_induction built
  case initial =>
    rintro - ⟨index⟩ symbol scope found parent
    cases index with
    | zero =>
      obtain rfl := Option.some.inj found
      cases parent
    | succ index => cases found
  case step =>
    intro operations operation builder after built ih performed plain
    have sound := (growsTree_build built).sound
    have placed := ih fun operation member => plain operation (List.mem_append_left _ member)
    have last := plain operation (by simp)
    rcases perform_cases performed with
      ⟨name, kind, type, span, rfl, rfl⟩ | ⟨span, rfl, rfl⟩ | ⟨scope, outer, rfl, known, rfl⟩
    · exact hasLocality_add sound placed name last type span
    · exact hasLocality_add sound placed "" ⟨rfl, rfl⟩ none span
    · exact placed

/-- A symbol that is added belongs to the innermost open scope. -/
theorem parent?_perform {operation : Operation} {after : SymbolBuilder} (sound : builder.IsSound)
    (performed : operation.perform builder = .ok after) (index : SymbolIndex) :
    after.table.parent? index =
      if operation.adds ∧ index = builder.nextIndex then some builder.scope
      else builder.table.parent? index := by
  rcases perform_cases performed with
    ⟨name, kind, type, span, rfl, rfl⟩ | ⟨span, rfl, rfl⟩ | ⟨scope, outer, rfl, known, rfl⟩
  · simpa [Operation.adds] using parent?_add name kind type span sound index
  · have added := parent?_add "" .scope none span sound index
    simpa [Operation.adds] using (show (builder.enter span).table.parent? index = _ from added)
  · simp [Operation.adds]

/-- Every symbol belongs to the scope that was the innermost open one when it was added. -/
theorem parent?_build (built : build operations = .ok builder) {before behind : List Operation}
    {operation : Operation} (split : operations = before ++ operation :: behind)
    (adds : operation.adds = true) :
    ∃ scope, IsInnermost before scope ∧
      builder.table.parent? ⟨1 + before.countP Operation.adds⟩ = some scope := by
  revert before behind operation
  apply build_induction built
  case initial =>
    intro before behind operation split
    simp at split
  case step =>
    intro operations final builder after built ih performed before behind operation split adds
    obtain ⟨opens, size⟩ := opens_build built
    have parents := parent?_perform (growsTree_build built).sound performed
    rcases List.eq_nil_or_concat behind with rfl | ⟨between, last, rfl⟩
    · -- the operation is the last one, so that the builder is the one that it was asked of
      obtain ⟨rfl, same⟩ := List.append_inj' split rfl
      obtain rfl := (List.cons.inj same).1
      refine ⟨builder.scope, opens.isInnermost, ?_⟩
      rw [parents, ← size]
      exact if_pos ⟨adds, rfl⟩
    · rw [List.concat_eq_append, ← List.cons_append, ← List.append_assoc] at split
      obtain ⟨scope, innermost, known⟩ := ih (List.append_inj' split rfl).1 adds
      refine ⟨scope, innermost, ?_⟩
      have present := SymbolTable.lt_size_of_parent? known
      rw [parents, if_neg fun new => (ne_nextIndex_of_lt present).1 new.2, known]

end Runs

/-- Operations can be performed exactly if no more scopes are left than were entered before, and then
the table is a tree: each symbol but the first one belongs to the scope with a smaller index that was
the innermost open one when it was added, and a walk that visits scopes in front of what belongs to
them meets the symbols in the order of their indices, which is how they are shown. It is a fault to
leave the global scope, and one to finish while another scope is open. -/
theorem operations_build_tree (operations : List Operation) :
    ((∃ builder, build operations = .ok builder) ↔
      ∀ before, before <+: operations →
        before.countP Operation.leaves ≤ before.countP Operation.enters) ∧
    (∀ fault, build operations = .error fault → fault = .globalScopeClosed) ∧
    ∀ builder, build operations = .ok builder →
      builder.leave? =
        (if operations.countP Operation.enters = operations.countP Operation.leaves then
          .error .globalScopeClosed else .ok builder.leave) ∧
      builder.finish =
        (if operations.countP Operation.enters = operations.countP Operation.leaves then
          .ok builder.table else .error .scopeLeftOpen) ∧
      builder.table.size = 1 + operations.countP Operation.adds ∧
      builder.table.IsTree ∧
      (∀ before operation behind, operations = before ++ operation :: behind →
        operation.adds = true → ∃ scope, IsInnermost before scope ∧
          builder.table.parent? ⟨1 + before.countP Operation.adds⟩ = some scope) ∧
      ((∀ operation ∈ operations, operation.NamesNoLocality) → builder.table.HasLocality) ∧
      builder.table.preorder builder.table.size SymbolTable.root =
        (List.range builder.table.size).map SymbolIndex.mk ∧
      builder.table.display =
        String.join ((List.range builder.table.size).map fun value => builder.table.row ⟨value⟩) := by
  refine ⟨exists_build_iff operations, fun fault => eq_globalScopeClosed_of_build, fun builder built => ?_⟩
  have grows := growsTree_build built
  have size := (opens_build built).2
  have place := isInGlobalScope_build built
  refine ⟨?_, ?_, size, grows.tree, fun before operation behind => parent?_build built,
    hasLocality_build built, grows.ordered, ?_⟩
  · simp only [leave?, place, decide_eq_true_eq]
  · simp only [finish, place, decide_eq_true_eq]
  · have shown := grows.tree.outline_eq builder.table.size SymbolTable.root
    have global : builder.table.depth SymbolTable.root = 0 := by
      rw [SymbolTable.depth, grows.tree.parent_root]
    rw [global, grows.ordered, List.map_map] at shown
    exact shown

/-- Two procedures, one within the other, with a binding behind each. -/
def nestedScopes : List Operation :=
  [.add "outer" .procedure none ⟨6, 11⟩, .enter ⟨14, 46⟩, .add "inner" .procedure none ⟨21, 26⟩,
    .enter ⟨29, 32⟩, .leave, .add "x" .binding none ⟨38, 39⟩, .leave, .add "y" .binding none ⟨51, 52⟩]

theorem nestedScopes_build_tree :
    ∃ builder, build nestedScopes = .ok builder ∧
      (∀ operation ∈ nestedScopes, operation.NamesNoLocality) ∧ builder.table.HasLocality ∧
      builder.table.parent? ⟨5⟩ = some ⟨2⟩ ∧ builder.finish = .ok builder.table ∧
      builder.table.preorder builder.table.size SymbolTable.root =
        [⟨0⟩, ⟨1⟩, ⟨2⟩, ⟨3⟩, ⟨4⟩, ⟨5⟩, ⟨6⟩] := by
  have plain : ∀ operation ∈ nestedScopes, operation.NamesNoLocality := by
    simp [nestedScopes, Operation.NamesNoLocality, SymbolKind.procedure, SymbolKind.binding]
  obtain ⟨builder, built⟩ : ∃ builder, build nestedScopes = .ok builder := ⟨_, rfl⟩
  obtain ⟨_, finish, size, _, _, locality, ordered, _⟩ :=
    (operations_build_tree nestedScopes).2.2 builder built
  refine ⟨builder, built, plain, locality plain, ?_, finish.trans (if_pos rfl), ?_⟩
  · obtain rfl := Except.ok.inj built
    rfl
  · rw [ordered, size]
    rfl

end SymbolBuilder

end Cadence
