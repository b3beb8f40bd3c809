import Cadence.Proofs.Plan.Declared

/-!
# What is in a symbol table

A table into which declarations were put consists of the global scope, one symbol for each of them,
however deep, and a scope for each body. The scope of a body is found from its owner as what follows
among the siblings: no other scope ever comes right behind a symbol.
-/
namespace Cadence

theorem Heading.IsAt.isScope {heading : Heading} {table : SymbolTable} {scope index : SymbolIndex}
    (found : heading.IsAt table scope index) : table.isScope index = false := by
  obtain ⟨_, span, entry⟩ := found
  rw [table.isScope_eq, entry]
  cases heading.kind <;> simp only [SymbolKind.localityIn] <;> split <;> rfl

namespace SymbolTable

/-- A scope consists of some declarations. -/
structure ConsistsOf (table : SymbolTable) (scope : SymbolIndex) (siblings : List Declaration) : Prop where
  children_eq : table.children scope = entriesOf siblings
  increasing : (entriesOf siblings).Pairwise (·.value < ·.value)
  placed : ∀ declaration ∈ siblings, declaration.IsIn table scope

theorem Declares.consistsOf {table : SymbolTable} {declared : List Declaration}
    (declares : table.Declares declared) : table.ConsistsOf root declared :=
  ⟨declares.globals_eq, declares.increasing, declares.placed⟩

/-- What follows a symbol among its siblings is its body if it is a scope. -/
theorem bodyScope?_of_children {table : SymbolTable} {scope index : SymbolIndex}
    {before behind : List SymbolIndex} (parent : ∃ symbol, table.symbol? index = some symbol ∧
      symbol.parent = some scope)
    (around : table.children scope = before ++ index :: behind)
    (increasing : (table.children scope).Pairwise (·.value < ·.value)) :
    table.bodyScope? index = behind.head?.filter table.isScope := by
  obtain ⟨symbol, present, parent⟩ := parent
  -- siblings are in increasing order, so that the symbol is found at its only place
  have fresh : index ∉ before := by
    intro member
    rw [around, List.pairwise_append] at increasing
    exact Nat.lt_irrefl _ (increasing.2.2 index member index List.mem_cons_self)
  simp only [bodyScope?, present, parent, around, next?_append fresh, Option.bind_eq_bind,
    Option.bind_some]
  cases behind <;> rfl

section Siblings

variable {table : SymbolTable} {scope : SymbolIndex} {siblings : List Declaration}

/-- Every declaration puts its own symbol first. -/
theorem exists_entries {declaration : Declaration} (inside : declaration.IsIn table scope) :
    ∃ index behind, declaration.heading.IsAt table scope index ∧
      declaration.entries = index :: behind := by
  cases inside with
  | simple found => exact ⟨_, _, found, entries_simple found.1⟩
  | withBody found => exact ⟨_, _, found, entries_withBody found.1⟩

/-- What comes first among some siblings is no scope. -/
theorem filter_isScope_head? (placed : ∀ declaration ∈ siblings, declaration.IsIn table scope) :
    (entriesOf siblings).head?.filter table.isScope = none := by
  cases siblings with
  | nil => rfl
  | cons first rest =>
    obtain ⟨index, behind, found, entries⟩ := exists_entries (placed first List.mem_cons_self)
    simp [entries, found.isScope]

/-- Among some siblings, the declarations are what is no scope. -/
theorem filter_not_isScope (placed : ∀ declaration ∈ siblings, declaration.IsIn table scope) :
    ((entriesOf siblings).filter fun index => !table.isScope index).map some =
      siblings.map Declaration.symbol? := by
  induction siblings with
  | nil => rfl
  | cons first rest ih =>
    obtain ⟨inside, others⟩ := List.forall_mem_cons.mp placed
    rw [entriesOf_cons, List.filter_append, List.map_append, ih others, List.map_cons]
    cases inside with
    | simple found => simp [entries_simple found.1, found.isScope, Declaration.symbol?,
        Declaration.heading, found.1]
    | withBody found body => simp [entries_withBody found.1, found.isScope, body.isScope,
        Declaration.symbol?, Declaration.heading, found.1]

variable (consists : table.ConsistsOf scope siblings)
include consists

/-- The siblings around one of them. -/
theorem ConsistsOf.exists_around {declaration : Declaration} (member : declaration ∈ siblings) :
    ∃ before behind, table.children scope = before ++ (declaration.entries ++ behind) ∧
      behind.head?.filter table.isScope = none := by
  obtain ⟨before, behind, rfl⟩ := List.append_of_mem member
  refine ⟨entriesOf before, entriesOf behind, ?_, ?_⟩
  · rw [consists.children_eq, entriesOf_append, entriesOf_cons]
  · exact filter_isScope_head? fun sibling inside =>
      consists.placed sibling (List.mem_append_right _ (List.mem_cons_of_mem _ inside))

theorem ConsistsOf.increasing_children : (table.children scope).Pairwise (·.value < ·.value) :=
  consists.children_eq ▸ consists.increasing

/-- A declaration without a body has no scope behind it. -/
theorem ConsistsOf.bodyScope?_simple {heading : Heading} (member : .simple heading ∈ siblings)
    {index : SymbolIndex} (found : heading.IsAt table scope index) : table.bodyScope? index = none := by
  obtain ⟨before, behind, around, following⟩ := consists.exists_around member
  rw [entries_simple found.1, List.singleton_append] at around
  rw [bodyScope?_of_children found.parent around consists.increasing_children, following]

/-- Behind a declaration with a body comes the scope of the body, and no further one behind that. -/
theorem ConsistsOf.bodyScope?_withBody {heading : Heading} {content : List Declaration}
    (member : .withBody heading content ∈ siblings) {index : SymbolIndex}
    (found : heading.IsAt table scope index) (body : table.HasBody scope index.next content) :
    table.bodyScope? index = some index.next ∧ table.bodyScope? index.next = none := by
  obtain ⟨before, behind, around, following⟩ := consists.exists_around member
  rw [entries_withBody found.1] at around
  constructor
  · rw [bodyScope?_of_children found.parent around consists.increasing_children]
    simp [body.isScope]
  · obtain ⟨⟨span, entry⟩, _⟩ := body
    obtain ⟨symbol, present, same⟩ := symbol?_of_shape? entry
    have around : table.children scope = (before ++ [index]) ++ index.next :: behind := by
      simpa using around
    rw [bodyScope?_of_children ⟨symbol, present, congrArg Symbol.parent same⟩ around
      consists.increasing_children, following]

/-- A declaration with a body lies in front of the scope of the body, which consists of what is
declared directly in it. -/
theorem ConsistsOf.body {heading : Heading} {content : List Declaration}
    (member : .withBody heading content ∈ siblings) :
    ∃ index, heading.IsAt table scope index ∧ table.HasBody scope index.next content ∧
      table.ConsistsOf index.next content := by
  cases consists.placed _ member with
  | withBody found body inside => exact ⟨_, found, body, body.children, body.2, inside⟩

end Siblings

end SymbolTable

/-- Whatever a plan declares, however deep, lies among some siblings in a scope. -/
theorem Plan.exists_siblings {plan : Plan} {table : SymbolTable} {scope : SymbolIndex}
    {siblings : List Declaration} (consists : table.ConsistsOf scope siblings)
    (among : plan.declarations ⊆ siblings) :
    ∀ declared ∈ plan.declared, ∃ scope siblings, table.ConsistsOf scope siblings ∧
      declared.declaration ∈ siblings := by
  have members {members : List Member} {content : List Declaration} {body : SymbolIndex}
      (consists : table.ConsistsOf body content) (among : Member.declarations members ⊆ content) :
      ∀ declared ∈ Member.declared members, ∃ scope siblings, table.ConsistsOf scope siblings ∧
        declared.declaration ∈ siblings := by
    intro declared member
    obtain ⟨own, present, rfl⟩ := List.mem_map.mp member
    exact ⟨_, _, consists, among (List.mem_map_of_mem present)⟩
  induction plan generalizing scope siblings with
  | value | stated | reference => nofun
  | field span target name ih => exact ih consists among
  | expression span inner ih => exact ih consists among
  | external head => exact List.forall_mem_singleton.mpr ⟨_, _, consists, among List.mem_cons_self⟩
  | procedure head body ih =>
    -- parameters lie in the scope of the body, next to what the body declares
    obtain ⟨index, _, _, inside⟩ := consists.body (among List.mem_cons_self)
    refine List.forall_mem_cons.mpr ⟨⟨_, _, consists, among List.mem_cons_self⟩, ?_⟩
    exact List.forall_mem_append.mpr ⟨members inside (List.subset_append_left _ _),
      ih inside (List.subset_append_right _ _)⟩
  | struct definition =>
    obtain ⟨index, _, _, inside⟩ := consists.body (among List.mem_cons_self)
    refine List.forall_mem_cons.mpr ⟨⟨_, _, consists, among List.mem_cons_self⟩, ?_⟩
    exact members inside (List.Subset.refl _)
  | binding head initial ih =>
    obtain ⟨inInitial, own⟩ := List.append_subset.mp among
    exact List.forall_mem_append.mpr ⟨ih consists inInitial,
      List.forall_mem_singleton.mpr ⟨_, _, consists, own List.mem_cons_self⟩⟩
  | combine rule first second ihFirst ihSecond =>
    obtain ⟨inFirst, inSecond⟩ := List.append_subset.mp among
    exact List.forall_mem_append.mpr ⟨ihFirst consists inFirst, ihSecond consists inSecond⟩

/-- A declaration has a symbol and, if it has a body, the scope of the body behind it. -/
structure Declared.LiesAt (item : Declared) (table : SymbolTable) (index : SymbolIndex) : Prop where
  exists_isAt : ∃ scope, item.heading.IsAt table scope index
  bodyScope?_eq : table.bodyScope? index = item.body.map fun _ => index.next
  isScope_next : item.body.isSome = true → table.isScope index.next = true
  bodyScope?_next : item.body.isSome = true → table.bodyScope? index.next = none
  content_eq : ∀ content ∈ item.body,
    ((table.children index.next).filter fun inner => !table.isScope inner).map some =
      content.map Declaration.symbol?

theorem SymbolTable.ConsistsOf.liesAt {table : SymbolTable} {scope : SymbolIndex}
    {siblings : List Declaration} (consists : table.ConsistsOf scope siblings) {item : Declared}
    (member : item.declaration ∈ siblings) : ∃ index, item.LiesAt table index := by
  obtain ⟨heading, type, body⟩ := item
  cases body with
  | none =>
    obtain ⟨index, found⟩ := (consists.placed _ member).heading_isAt
    exact ⟨index, ⟨_, found⟩, consists.bodyScope?_simple member found, nofun, nofun, nofun⟩
  | some content =>
    obtain ⟨index, found, body, inside⟩ := consists.body member
    obtain ⟨own, next⟩ := consists.bodyScope?_withBody member found body
    refine ⟨index, ⟨_, found⟩, own, fun _ => body.isScope, fun _ => next, ?_⟩
    intro _ same
    cases same
    rw [inside.children_eq, SymbolTable.filter_not_isScope inside.placed]

theorem Declared.mem_entries {item : Declared} {index : SymbolIndex} :
    index ∈ item.declaration.entries ↔ item.heading.symbol = some index ∨
      item.body.isSome = true ∧ ∃ owner, item.heading.symbol = some owner ∧ index = owner.next := by
  obtain ⟨⟨name, kind, symbol⟩, type, body⟩ := item
  cases body <;> cases symbol <;> simp [Declared.declaration, Declaration.entries, eq_comm]

theorem Plan.length_blockOf {declared : List Declared}
    (known : ∀ item ∈ declared, item.heading.symbol.isSome = true) :
    (blockOf declared).length =
      declared.length + declared.countP fun item => item.body.isSome := by
  induction declared with
  | nil => rfl
  | cons first rest ih =>
    obtain ⟨own, others⟩ := List.forall_mem_cons.mp known
    obtain ⟨index, symbol⟩ := Option.isSome_iff_exists.mp own
    rw [blockOf, List.flatMap_cons, List.length_append, ← blockOf, ih others, List.countP_cons,
      List.length_cons]
    obtain ⟨heading, type, body⟩ := first
    cases body with
    | none =>
      rw [Declared.declaration, entries_simple symbol]
      simp
      omega
    | some content =>
      rw [Declared.declaration, entries_withBody symbol]
      simp
      omega

/-- A table has one symbol for each of some declarations, one scope for each body, and nothing else
but the global scope. -/
structure SymbolTable.Records (table : SymbolTable) (declared : List Declared) : Prop where
  recorded : ∀ item ∈ declared, ∃ index symbol scope, item.heading.symbol = some index ∧
    table.symbol? index = some symbol ∧ symbol.parent = some scope ∧
    symbol.name = item.heading.name ∧
    symbol.kind = item.heading.kind.symbolKind.union (.localityIn scope) ∧ symbol.type = item.type
  distinct : (declared.map fun item => item.heading.symbol).Nodup
  complete : ∀ index : SymbolIndex, index.value < table.size → table.isScope index = false →
    ∃ item ∈ declared, item.heading.symbol = some index
  size_eq : table.size = 1 + declared.length + declared.countP fun item => item.body.isSome
  isSome_bodyScope?_iff : ∀ owner, (table.bodyScope? owner).isSome = true ↔
    ∃ item ∈ declared, item.heading.symbol = some owner ∧ item.body.isSome = true
  /-- The scopes of bodies are all scopes but the global one. -/
  exists_owner_iff : ∀ scope, (∃ owner, table.bodyScope? owner = some scope) ↔
    scope ≠ root ∧ table.isScope scope = true
  owner_unique : ∀ {owner other scope}, table.bodyScope? owner = some scope →
    table.bodyScope? other = some scope → owner = other
  content_eq : ∀ item ∈ declared, ∀ content ∈ item.body, ∀ owner scope,
    item.heading.symbol = some owner → table.bodyScope? owner = some scope →
      ((table.children scope).filter fun inner => !table.isScope inner).map some =
        content.map Declaration.symbol?

/-- Some declarations take up all of a table behind the global scope. -/
structure SymbolTable.LaysOut (table : SymbolTable) (declared : List Declared) : Prop where
  placed : ∀ item ∈ declared, ∃ index, item.LiesAt table index
  types : ∀ item ∈ declared, ∀ index, item.heading.symbol = some index →
    table.type? index = item.type
  numbered : ∃ size, table.size = size + 1 ∧ Plan.blockOf declared = Plan.block 1 size
  isScope_root : table.isScope root = true
  bodyScope?_root : table.bodyScope? root = none

theorem Declared.LiesAt.symbol_eq {item : Declared} {table : SymbolTable} {index : SymbolIndex}
    (lies : item.LiesAt table index) : item.heading.symbol = some index :=
  lies.exists_isAt.elim fun _ found => found.1

theorem SymbolTable.lt_size_of_bodyScope? {table : SymbolTable} {owner scope : SymbolIndex}
    (found : table.bodyScope? owner = some scope) : owner.value < table.size := by
  rw [bodyScope?, Option.bind_eq_bind, Option.bind_eq_some_iff] at found
  obtain ⟨symbol, present, _⟩ := found
  exact (Array.getElem?_eq_some_iff.mp present).1

theorem SymbolTable.lt_size_of_isScope {table : SymbolTable} {scope : SymbolIndex}
    (isScope : table.isScope scope = true) : scope.value < table.size := by
  rw [isScope_eq] at isScope
  rw [lt_size_iff]
  cases entry : table.shape? scope with
  | none => simp [entry] at isScope
  | some symbol => rfl

namespace SymbolTable.LaysOut

variable {table : SymbolTable} {declared : List Declared} (layout : table.LaysOut declared)
include layout

theorem liesAt {item : Declared} (member : item ∈ declared) {index : SymbolIndex}
    (symbol : item.heading.symbol = some index) : item.LiesAt table index := by
  obtain ⟨other, lies⟩ := layout.placed item member
  obtain rfl := Option.some.inj (lies.symbol_eq.symm.trans symbol)
  exact lies

theorem isSome_symbol : ∀ item ∈ declared, item.heading.symbol.isSome = true := by
  intro item member
  obtain ⟨index, lies⟩ := layout.placed item member
  rw [lies.symbol_eq]
  rfl

/-- A symbol is the global scope, that of a declaration, or the scope of a body. -/
theorem cases_index {index : SymbolIndex} (present : index.value < table.size) :
    index = root ∨ ∃ item ∈ declared, item.heading.symbol = some index ∨
      item.body.isSome = true ∧ ∃ owner, item.heading.symbol = some owner ∧ index = owner.next := by
  obtain ⟨size, size_eq, numbered⟩ := layout.numbered
  obtain ⟨value⟩ := index
  cases value with
  | zero => exact .inl rfl
  | succ value =>
    have member : (⟨value + 1⟩ : SymbolIndex) ∈ Plan.blockOf declared := by
      rw [numbered, Plan.block]
      refine List.mem_map_of_mem (List.mem_range'_1.mpr ⟨by omega, ?_⟩)
      dsimp only at present
      omega
    obtain ⟨item, inside, entry⟩ := List.mem_flatMap.mp member
    exact .inr ⟨item, inside, Declared.mem_entries.mp entry⟩

/-- Only declarations with a body have the scope of one, which lies right behind them. -/
theorem bodyScope?_eq_some {owner scope : SymbolIndex} (found : table.bodyScope? owner = some scope) :
    scope = owner.next ∧ ∃ item ∈ declared, item.LiesAt table owner ∧ item.body.isSome = true := by
  rcases layout.cases_index (lt_size_of_bodyScope? found) with
    rfl | ⟨item, member, own | ⟨hasBody, before, symbol, rfl⟩⟩
  · rw [layout.bodyScope?_root] at found
    cases found
  · have lies := layout.liesAt member own
    rw [lies.bodyScope?_eq, Option.map_eq_some_iff] at found
    obtain ⟨content, body, rfl⟩ := found
    exact ⟨rfl, item, member, lies, by rw [body]; rfl⟩
  · -- nothing follows the scope of a body but a declaration
    rw [(layout.liesAt member symbol).bodyScope?_next hasBody] at found
    cases found

/-- A scope is the global one or that of the body of a declaration. -/
theorem isScope_cases {scope : SymbolIndex} (isScope : table.isScope scope = true) :
    scope = root ∨ ∃ owner, ∃ item ∈ declared, item.LiesAt table owner ∧ item.body.isSome = true ∧
      scope = owner.next := by
  rcases layout.cases_index (lt_size_of_isScope isScope) with
    rfl | ⟨item, member, own | ⟨hasBody, owner, symbol, rfl⟩⟩
  · exact .inl rfl
  · -- the symbol of a declaration is no scope
    obtain ⟨_, found⟩ := (layout.liesAt member own).exists_isAt
    rw [found.isScope] at isScope
    cases isScope
  · exact .inr ⟨owner, item, member, layout.liesAt member symbol, hasBody, rfl⟩

theorem recorded {item : Declared} (member : item ∈ declared) :
    ∃ index symbol scope, item.heading.symbol = some index ∧ table.symbol? index = some symbol ∧
      symbol.parent = some scope ∧ symbol.name = item.heading.name ∧
      symbol.kind = item.heading.kind.symbolKind.union (.localityIn scope) ∧ symbol.type = item.type := by
  obtain ⟨index, lies⟩ := layout.placed item member
  obtain ⟨scope, known, span, entry⟩ := lies.exists_isAt
  obtain ⟨symbol, present, same⟩ := symbol?_of_shape? entry
  have type := layout.types item member index known
  rw [type?, present] at type
  exact ⟨index, symbol, scope, known, present, congrArg Symbol.parent same, congrArg Symbol.name same,
    congrArg Symbol.kind same, type⟩

/-- No two declarations share a symbol. -/
theorem distinct : (declared.map fun item => item.heading.symbol).Nodup := by
  obtain ⟨size, _, numbered⟩ := layout.numbered
  have different : (Plan.blockOf declared).Nodup := by
    rw [numbered]
    exact List.Nodup.map (fun left right same => congrArg SymbolIndex.value same) List.nodup_range'
  refine List.pairwise_map.mpr ((List.nodup_flatMap.mp different).2.imp_of_mem ?_)
  intro item other member _ apart same
  obtain ⟨index, symbol⟩ := Option.isSome_iff_exists.mp (layout.isSome_symbol item member)
  exact apart (Declared.mem_entries.mpr (.inl symbol)) (Declared.mem_entries.mpr (.inl (same ▸ symbol)))

/-- What is no scope is the symbol of a declaration. -/
theorem complete {index : SymbolIndex} (present : index.value < table.size)
    (isNoScope : table.isScope index = false) : ∃ item ∈ declared, item.heading.symbol = some index := by
  rcases layout.cases_index present with rfl | ⟨item, member, own | ⟨hasBody, before, symbol, rfl⟩⟩
  · rw [layout.isScope_root] at isNoScope
    cases isNoScope
  · exact ⟨item, member, own⟩
  · rw [(layout.liesAt member symbol).isScope_next hasBody] at isNoScope
    cases isNoScope

theorem isSome_bodyScope?_iff (owner : SymbolIndex) :
    (table.bodyScope? owner).isSome = true ↔
      ∃ item ∈ declared, item.heading.symbol = some owner ∧ item.body.isSome = true := by
  constructor
  · intro found
    obtain ⟨scope, found⟩ := Option.isSome_iff_exists.mp found
    obtain ⟨_, item, member, lies, hasBody⟩ := layout.bodyScope?_eq_some found
    exact ⟨item, member, lies.symbol_eq, hasBody⟩
  · rintro ⟨item, member, symbol, hasBody⟩
    rwa [(layout.liesAt member symbol).bodyScope?_eq, Option.isSome_map]

theorem exists_owner_iff (scope : SymbolIndex) :
    (∃ owner, table.bodyScope? owner = some scope) ↔ scope ≠ root ∧ table.isScope scope = true := by
  constructor
  · rintro ⟨owner, found⟩
    obtain ⟨rfl, item, member, lies, hasBody⟩ := layout.bodyScope?_eq_some found
    exact ⟨fun same => absurd (congrArg SymbolIndex.value same) (Nat.succ_ne_zero _),
      lies.isScope_next hasBody⟩
  · rintro ⟨notRoot, isScope⟩
    rcases layout.isScope_cases isScope with rfl | ⟨owner, item, member, lies, hasBody, rfl⟩
    · exact absurd rfl notRoot
    · obtain ⟨content, body⟩ := Option.isSome_iff_exists.mp hasBody
      exact ⟨owner, by rw [lies.bodyScope?_eq, body]; rfl⟩

theorem size_eq :
    table.size = 1 + declared.length + declared.countP fun item => item.body.isSome := by
  obtain ⟨size, size_eq, numbered⟩ := layout.numbered
  have length := congrArg List.length numbered
  rw [Plan.length_blockOf layout.isSome_symbol, Plan.block, List.length_map, List.length_range'] at length
  omega

theorem records : table.Records declared where
  recorded _ := layout.recorded
  distinct := layout.distinct
  complete _ := layout.complete
  size_eq := layout.size_eq
  isSome_bodyScope?_iff := layout.isSome_bodyScope?_iff
  exists_owner_iff := layout.exists_owner_iff
  owner_unique found again := by
    have first := (layout.bodyScope?_eq_some found).1
    have second := (layout.bodyScope?_eq_some again).1
    exact congrArg SymbolIndex.mk (Nat.succ.inj (congrArg SymbolIndex.value (first.symm.trans second)))
  content_eq item member content body owner scope symbol found := by
    obtain ⟨rfl, _⟩ := layout.bodyScope?_eq_some found
    exact (layout.liesAt member symbol).content_eq content body

end SymbolTable.LaysOut

end Cadence
