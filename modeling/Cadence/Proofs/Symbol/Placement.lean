import Cadence.Proofs.Symbol.Declaration

/-!
# Declarations in a symbol table

Once a symbol is in a table, only its type changes. Everything that is looked up apart from types
therefore depends on the entries alone, which are the symbols without their types.

`Declaration.IsIn` says that a table has all that a declaration demands of it: its own symbol in the
scope around it and, if it has a body, the scope of the body directly behind, with exactly the
symbols of the declarations in it.
-/
namespace Cadence

open Source (Span)

/-- What stays the same about a symbol. -/
def Symbol.withoutType (symbol : Symbol) : Symbol := { symbol with type := none }

namespace SymbolTable

/-- What stays the same about a symbol of a table. -/
def shape? (table : SymbolTable) (index : SymbolIndex) : Option Symbol :=
  (table.symbol? index).map Symbol.withoutType

/-- Two tables differ at most in the types of their symbols. -/
def SameShape (left right : SymbolTable) : Prop := ∀ index, left.shape? index = right.shape? index

theorem children_eq (table : SymbolTable) (scope : SymbolIndex) :
    table.children scope = ((table.shape? scope).map Symbol.children).getD [] := by
  simp [children, shape?, Function.comp_def, Symbol.withoutType]

theorem isScope_eq (table : SymbolTable) (index : SymbolIndex) :
    table.isScope index = ((table.shape? index).map fun symbol => symbol.kind.isScope).getD false := by
  simp [isScope, shape?, Function.comp_def, Symbol.withoutType]

theorem isStruct_eq (table : SymbolTable) (index : SymbolIndex) :
    table.isStruct index =
      ((table.shape? index).map fun symbol => symbol.kind.isStruct).getD false := by
  simp [isStruct, shape?, Function.comp_def, Symbol.withoutType]

theorem name?_eq (table : SymbolTable) (index : SymbolIndex) :
    table.name? index = (table.shape? index).bind fun symbol =>
      if symbol.kind.isScope then none else some symbol.name := by
  cases found : table.symbol? index <;> simp [name?, shape?, found, Symbol.withoutType]

theorem lt_size_iff (table : SymbolTable) (index : SymbolIndex) :
    index.value < table.size ↔ (table.shape? index).isSome := by
  simp [shape?, symbol?, size]

theorem symbol?_of_shape? {table : SymbolTable} {index : SymbolIndex} {entry : Symbol}
    (found : table.shape? index = some entry) :
    ∃ symbol, table.symbol? index = some symbol ∧ symbol.withoutType = entry :=
  Option.map_eq_some_iff.mp found

theorem shape?_setType (table : SymbolTable) (changed index : SymbolIndex) (type : Option Ty) :
    (table.setType changed type).shape? index = table.shape? index := by
  simp only [shape?, setType, modify, symbol?, Array.getElem?_modify]
  split
  -- the changed symbol differs in nothing but its type, which is not part of the entry
  · cases table.symbols[index.value]? <;> simp [Symbol.withoutType]
  · rfl

namespace SameShape

theorem refl (table : SymbolTable) : table.SameShape table := fun _ => rfl

theorem symm {left right : SymbolTable} (same : left.SameShape right) : right.SameShape left :=
  fun index => (same index).symm

variable {left right : SymbolTable} (same : left.SameShape right)
include same

theorem setType (index : SymbolIndex) (type : Option Ty) :
    (left.setType index type).SameShape right :=
  fun other => (left.shape?_setType index other type).trans (same other)

theorem children (scope : SymbolIndex) : left.children scope = right.children scope := by
  rw [children_eq, children_eq, same]

theorem isScope (index : SymbolIndex) : left.isScope index = right.isScope index := by
  rw [isScope_eq, isScope_eq, same]

theorem isStruct (index : SymbolIndex) : left.isStruct index = right.isStruct index := by
  rw [isStruct_eq, isStruct_eq, same]

theorem name? (index : SymbolIndex) : left.name? index = right.name? index := by
  rw [name?_eq, name?_eq, same]

theorem lt_size (index : SymbolIndex) : index.value < left.size ↔ index.value < right.size := by
  rw [lt_size_iff, lt_size_iff, same]

theorem lookupGlobal? (name : String) : left.lookupGlobal? name = right.lookupGlobal? name := by
  simp only [SymbolTable.lookupGlobal?, globals, same.children, same.name?]

theorem bodyScope? (owner : SymbolIndex) : left.bodyScope? owner = right.bodyScope? owner := by
  have parents : (left.symbol? owner).map Symbol.parent = (right.symbol? owner).map Symbol.parent := by
    simpa [shape?, Function.comp_def, Symbol.withoutType] using congrArg (Option.map Symbol.parent) (same owner)
  simp only [SymbolTable.bodyScope?, same.children, same.isScope]
  cases first : left.symbol? owner <;> cases second : right.symbol? owner <;>
    simp_all

end SameShape

end SymbolTable

/-- What the place of a declaration contributes to the kind of its symbol. -/
def SymbolKind.localityIn (scope : SymbolIndex) : SymbolKind :=
  if scope = SymbolTable.root then { isGlobal := true } else { isLocal := true }

/-- The table has the symbol of a declaration in a scope. -/
def Heading.IsAt (heading : Heading) (table : SymbolTable) (scope index : SymbolIndex) : Prop :=
  heading.symbol = some index ∧ ∃ span, table.shape? index = some
    { name := heading.name, kind := heading.kind.symbolKind.union (.localityIn scope), type := none,
      span, parent := some scope, children := [] }

/-- The table has a scope within another one that consists of some declarations. -/
def SymbolTable.HasBody (table : SymbolTable) (scope body : SymbolIndex)
    (content : List Declaration) : Prop :=
  (∃ span, table.shape? body = some
    { name := "", kind := SymbolKind.scope.union (.localityIn scope), type := none, span,
      parent := some scope, children := entriesOf content }) ∧
  (entriesOf content).Pairwise (·.value < ·.value)

/-- The table has what a declaration in a scope demands. -/
inductive Declaration.IsIn (table : SymbolTable) : SymbolIndex → Declaration → Prop
  | simple {scope index : SymbolIndex} {heading : Heading} :
      heading.IsAt table scope index → IsIn table scope (.simple heading)
  | withBody {scope index : SymbolIndex} {heading : Heading} {content : List Declaration} :
      heading.IsAt table scope index → table.HasBody scope index.next content →
      (∀ declaration ∈ content, IsIn table index.next declaration) →
      IsIn table scope (.withBody heading content)

theorem Declaration.IsIn.heading_isAt {table : SymbolTable} {scope : SymbolIndex}
    {declaration : Declaration} (inside : declaration.IsIn table scope) :
    ∃ index, declaration.heading.IsAt table scope index := by
  cases inside with
  | simple found => exact ⟨_, found⟩
  | withBody found => exact ⟨_, found⟩

namespace Heading.IsAt

variable {heading : Heading} {table : SymbolTable} {scope index : SymbolIndex}
  (found : heading.IsAt table scope index)
include found

theorem name? : table.name? index = some heading.name := by
  obtain ⟨_, span, entry⟩ := found
  rw [table.name?_eq, entry]
  -- no kind of a declaration is that of a scope, wherever the declaration is
  cases heading.kind <;> simp only [SymbolKind.localityIn] <;> split <;> rfl

theorem isStruct : table.isStruct index = decide (heading.kind = .struct) := by
  obtain ⟨_, span, entry⟩ := found
  rw [table.isStruct_eq, entry]
  cases heading.kind <;> simp only [SymbolKind.localityIn] <;> split <;> rfl

theorem lt_size : index.value < table.size := by
  obtain ⟨_, span, entry⟩ := found
  simp [table.lt_size_iff, entry]

theorem parent : ∃ symbol, table.symbol? index = some symbol ∧ symbol.parent = some scope := by
  obtain ⟨_, span, entry⟩ := found
  obtain ⟨symbol, present, same⟩ := SymbolTable.symbol?_of_shape? entry
  exact ⟨symbol, present, congrArg Symbol.parent same⟩

end Heading.IsAt

namespace SymbolTable.HasBody

variable {table : SymbolTable} {scope body : SymbolIndex} {content : List Declaration}
  (found : table.HasBody scope body content)
include found

theorem children : table.children body = entriesOf content := by
  obtain ⟨⟨span, entry⟩, _⟩ := found
  simp [table.children_eq, entry]

theorem isScope : table.isScope body = true := by
  obtain ⟨⟨span, entry⟩, _⟩ := found
  simp [table.isScope_eq, entry, SymbolKind.union, SymbolKind.scope]

theorem name? : table.name? body = none := by
  obtain ⟨⟨span, entry⟩, _⟩ := found
  simp [table.name?_eq, entry, SymbolKind.union, SymbolKind.scope]

theorem lt_size : body.value < table.size := by
  obtain ⟨⟨span, entry⟩, _⟩ := found
  simp [table.lt_size_iff, entry]

end SymbolTable.HasBody

/-- All symbols that a declaration puts into a scope are in the table. -/
theorem Declaration.IsIn.entries_lt_size {table : SymbolTable} {scope : SymbolIndex}
    {declaration : Declaration} (inside : declaration.IsIn table scope) {entry : SymbolIndex}
    (member : entry ∈ declaration.entries) : entry.value < table.size := by
  cases inside with
  | simple found =>
    rw [entries_simple found.1, List.mem_singleton] at member
    exact member ▸ found.lt_size
  | withBody found body =>
    rw [entries_withBody found.1, List.mem_cons, List.mem_singleton] at member
    rcases member with rfl | rfl
    · exact found.lt_size
    · exact body.lt_size

namespace SymbolTable

theorem next?_append {α : Type} [DecidableEq α] {item : α} {before behind : List α}
    (fresh : item ∉ before) : next? item (before ++ item :: behind) = behind.head? := by
  induction before with
  | nil => simp [next?]
  | cons first rest ih =>
    simp only [List.mem_cons, not_or] at fresh
    simp [next?, Ne.symm fresh.1, ih fresh.2]

/-- The scope of a body is found from its owner, since the symbols around it are all different. -/
theorem bodyScope?_eq {table : SymbolTable} {scope index : SymbolIndex} {heading : Heading}
    {before behind : List SymbolIndex} {content : List Declaration}
    (found : heading.IsAt table scope index) (body : table.HasBody scope index.next content)
    (around : table.children scope = before ++ index :: index.next :: behind)
    (increasing : (table.children scope).Pairwise (·.value < ·.value)) :
    table.bodyScope? index = some index.next := by
  obtain ⟨symbol, present, parent⟩ := found.parent
  -- the body is looked for behind the first occurrence of its owner, which must be the only one
  have fresh : index ∉ before := by
    intro member
    rw [around, List.pairwise_append] at increasing
    exact Nat.lt_irrefl _ (increasing.2.2 index member index List.mem_cons_self)
  simp [bodyScope?, present, parent, around, next?_append fresh, body.isScope]

end SymbolTable

/-- In its scope, a declaration is what its name stands for, and the scope of its body has no name. -/
theorem Declaration.IsIn.filterMap_name? {table : SymbolTable} {scope : SymbolIndex}
    {declaration : Declaration} (inside : declaration.IsIn table scope) :
    declaration.entries.filterMap table.name? = [declaration.name] := by
  cases inside with
  | simple own =>
    rw [entries_simple own.1]
    simp [own.name?, Declaration.name, Declaration.heading]
  | withBody own body =>
    have unnamed := body.name?
    rw [entries_withBody own.1]
    simp [own.name?, unnamed, Declaration.name, Declaration.heading]

/-- The symbols of some declarations can be referred to by the names of the declarations. -/
theorem filterMap_name?_entriesOf {table : SymbolTable} {scope : SymbolIndex}
    {declared : List Declaration} (inside : ∀ declaration ∈ declared, declaration.IsIn table scope) :
    (entriesOf declared).filterMap table.name? = declared.map Declaration.name := by
  induction declared with
  | nil => rfl
  | cons first rest ih =>
    obtain ⟨own, others⟩ := List.forall_mem_cons.mp inside
    rw [entriesOf_cons, List.filterMap_append, own.filterMap_name?, ih others]
    rfl

end Cadence
