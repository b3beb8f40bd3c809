import Cadence.Proofs.Symbol.Placement

/-!
# Registration puts declarations into a table

`SymbolBuilder.Registers` says what happens to a builder when some declarations are registered: they
are appended to the innermost open scope, their symbols and scopes are new, and everything else
stays. The new symbols are final: any later table that still has them has the declarations as well.

Registering a node does exactly this with the declarations that the node then makes, and so the
global scope of a unit consists of the declarations of its files.
-/
namespace Cadence

open Source (Span)

/-- Two tables have the same entries from one index up to another one. -/
def SymbolTable.AgreesOn (left right : SymbolTable) (low high : Nat) : Prop :=
  ∀ index : SymbolIndex, low ≤ index.value → index.value < high → left.shape? index = right.shape? index

theorem SymbolTable.AgreesOn.narrow {left right : SymbolTable} {low high low' high' : Nat}
    (agrees : left.AgreesOn right low high) (above : low ≤ low') (below : high' ≤ high) :
    left.AgreesOn right low' high' :=
  fun index lower upper => agrees index (by omega) (by omega)

theorem SymbolTable.AgreesOn.trans {left middle right : SymbolTable} {low high : Nat}
    (first : left.AgreesOn middle low high) (second : middle.AgreesOn right low high) :
    left.AgreesOn right low high :=
  fun index lower upper => (first index lower upper).trans (second index lower upper)

namespace SymbolBuilder

/-- The open scopes are in the table, and the global one is not open a second time. -/
def IsSound (builder : SymbolBuilder) : Prop :=
  0 < builder.table.size ∧
    ∀ scope ∈ builder.inner, scope ≠ SymbolTable.root ∧ scope.value < builder.table.size

theorem isSound_start : start.IsSound := ⟨Nat.zero_lt_one, by simp [start]⟩

theorem IsSound.scope_lt_size {builder : SymbolBuilder} (sound : builder.IsSound) :
    builder.scope.value < builder.table.size := by
  obtain ⟨present, scopes⟩ := sound
  cases known : builder.inner with
  | nil => simpa [scope, known, SymbolTable.root] using present
  | cons first rest => simpa [scope, known] using (scopes first (by simp [known])).2

theorem IsSound.locality_eq {builder : SymbolBuilder} (sound : builder.IsSound) :
    builder.locality = SymbolKind.localityIn builder.scope := by
  cases known : builder.inner with
  | nil => simp [locality, isInGlobalScope, scope, SymbolKind.localityIn, known]
  | cons first rest =>
    have inside := (sound.2 first (by simp [known])).1
    simp [locality, isInGlobalScope, scope, SymbolKind.localityIn, known, inside]

theorem size_add (builder : SymbolBuilder) (name : String) (kind : SymbolKind) (type : Option Ty)
    (span : Span) : (builder.add name kind type span).table.size = builder.table.size + 1 := by
  simp [add, SymbolTable.push, SymbolTable.modify, SymbolTable.size]

/-- Adding a symbol changes two entries: its own one and that of the scope it goes into. -/
theorem shape?_add {builder : SymbolBuilder} (sound : builder.IsSound) (name : String)
    (kind : SymbolKind) (type : Option Ty) (span : Span) (index : SymbolIndex) :
    (builder.add name kind type span).table.shape? index =
      if index = builder.nextIndex then
        some { name, kind := kind.union (.localityIn builder.scope), type := none, span,
               parent := some builder.scope, children := [] }
      else if index = builder.scope then
        (builder.table.shape? index).map fun owner =>
          { owner with children := owner.children ++ [builder.nextIndex] }
      else builder.table.shape? index := by
  have open_ := sound.scope_lt_size
  rw [← sound.locality_eq]
  obtain ⟨index⟩ := index
  simp only [add, SymbolTable.push, SymbolTable.modify, SymbolTable.shape?, SymbolTable.symbol?,
    Array.getElem?_modify, Array.getElem?_push, nextIndex, SymbolTable.size, SymbolIndex.mk.injEq]
      at open_ ⊢
  -- three kinds of indices: the new symbol, the scope that comes to list it, and all others
  by_cases new : index = builder.table.symbols.size
  · subst new
    rw [if_neg (Nat.ne_of_lt open_)]
    simp [Symbol.withoutType]
  · by_cases owner : index = builder.scope.value
    · subst owner
      simp only [if_neg new, ↓reduceIte]
      cases builder.table.symbols[builder.scope.value]? <;> simp [Symbol.withoutType]
    · have other : (⟨index⟩ : SymbolIndex) ≠ builder.scope := fun same => owner (congrArg SymbolIndex.value same)
      rw [if_neg (Ne.symm owner), if_neg new, if_neg new, if_neg other]

/-- Some declarations are put into the innermost open scope. -/
structure Registers (before after : SymbolBuilder) (declared : List Declaration) : Prop where
  inner_eq : after.inner = before.inner
  size_le : before.table.size ≤ after.table.size
  scope_entry : after.table.shape? before.scope = (before.table.shape? before.scope).map fun owner =>
    { owner with children := owner.children ++ entriesOf declared }
  others_kept : ∀ index : SymbolIndex, index.value < before.table.size → index ≠ before.scope →
    after.table.shape? index = before.table.shape? index
  entries_new : ∀ entry ∈ entriesOf declared,
    before.table.size ≤ entry.value ∧ entry.value < after.table.size
  increasing : (entriesOf declared).Pairwise (·.value < ·.value)
  placed : ∀ table : SymbolTable, table.AgreesOn after.table before.table.size after.table.size →
    ∀ declaration ∈ declared, declaration.IsIn table before.scope

namespace Registers

theorem refl (builder : SymbolBuilder) : builder.Registers builder [] where
  inner_eq := rfl
  size_le := Nat.le_refl _
  scope_entry := by cases builder.table.shape? builder.scope <;> simp
  others_kept := fun _ _ _ => rfl
  entries_new := by simp
  increasing := .nil
  placed := by simp

variable {before middle after : SymbolBuilder} {first second : List Declaration}

theorem scope_eq (registers : before.Registers after first) : after.scope = before.scope := by
  simp [scope, registers.inner_eq]

theorem isSound (registers : before.Registers after first) (sound : before.IsSound) :
    after.IsSound := by
  refine ⟨Nat.lt_of_lt_of_le sound.1 registers.size_le, ?_⟩
  intro inner member
  rw [registers.inner_eq] at member
  obtain ⟨notRoot, present⟩ := sound.2 inner member
  exact ⟨notRoot, Nat.lt_of_lt_of_le present registers.size_le⟩

theorem trans (left : before.Registers middle first) (sound : before.IsSound)
    (right : middle.Registers after second) : before.Registers after (first ++ second) := by
  have open_ := sound.scope_lt_size
  have grown := left.size_le
  have further := right.size_le
  have same := left.scope_eq
  -- the symbols that the first step adds are neither the open scope nor new in the second step
  have early : after.table.AgreesOn middle.table before.table.size middle.table.size := by
    intro index lower upper
    apply right.others_kept index upper
    rw [same]
    rintro rfl
    omega
  constructor
  case inner_eq => rw [right.inner_eq, left.inner_eq]
  case size_le => omega
  case scope_entry =>
    -- the second step appends to what the first one left in the scope
    have second_entry := right.scope_entry
    rw [same, left.scope_entry] at second_entry
    rw [second_entry]
    cases before.table.shape? before.scope <;> simp
  case others_kept =>
    intro index old other
    rw [right.others_kept index (by omega) (same ▸ other), left.others_kept index old other]
  case entries_new =>
    simp only [entriesOf_append, List.mem_append]
    rintro entry (member | member)
    · have := left.entries_new entry member
      omega
    · have := right.entries_new entry member
      omega
  case increasing =>
    rw [entriesOf_append, List.pairwise_append]
    refine ⟨left.increasing, right.increasing, fun old oldMember new newMember => ?_⟩
    have := left.entries_new old oldMember
    have := right.entries_new new newMember
    omega
  case placed =>
    intro table agrees declaration member
    rcases List.mem_append.mp member with member | member
    · refine left.placed table ?_ declaration member
      -- a table that has what the second step added still has what the first one did
      exact (agrees.narrow (Nat.le_refl _) further).trans early
    · rw [← same]
      exact right.placed table (agrees.narrow grown (Nat.le_refl _)) declaration member

end Registers

theorem registers_add {builder : SymbolBuilder} (sound : builder.IsSound) (name : String)
    (kind : DeclarationKind) (type : Option Ty) (span : Span) :
    builder.Registers (builder.add name kind.symbolKind type span)
      [.simple ⟨name, kind, some builder.nextIndex⟩] := by
  have open_ := sound.scope_lt_size
  -- everything follows from what the table holds behind the addition
  have entry := shape?_add sound name kind.symbolKind type span
  have size := builder.size_add name kind.symbolKind type span
  have entries : entriesOf [.simple ⟨name, kind, some builder.nextIndex⟩] = [builder.nextIndex] := by
    simp [Declaration.entries]
  have new : builder.scope ≠ builder.nextIndex := by
    intro same
    simp [same, nextIndex] at open_
  constructor
  case inner_eq => rfl
  case size_le => omega
  case scope_entry => rw [entry, if_neg new, if_pos rfl, entries]
  case others_kept =>
    intro index old other
    rw [entry, if_neg ?_, if_neg other]
    rintro rfl
    exact Nat.lt_irrefl _ old
  case entries_new =>
    rw [entries]
    intro entry member
    obtain rfl := List.mem_singleton.mp member
    simp [nextIndex, size]
  case increasing => simp [entries]
  case placed =>
    intro table agrees declaration member
    obtain rfl := List.mem_singleton.mp member
    refine .simple ⟨rfl, span, ?_⟩
    rw [agrees builder.nextIndex (Nat.le_refl _) (by simp [size, nextIndex]), entry, if_pos rfl]

theorem IsSound.enter {builder : SymbolBuilder} (sound : builder.IsSound) (span : Span) :
    (builder.enter span).IsSound := by
  have size : (builder.enter span).table.size = builder.table.size + 1 := builder.size_add _ _ _ _
  refine ⟨by omega, ?_⟩
  intro inner member
  rw [size]
  rcases List.mem_cons.mp member with rfl | member
  · have := sound.1
    exact ⟨fun same => by simp [nextIndex, SymbolTable.root] at same; omega, Nat.lt_succ_self _⟩
  · obtain ⟨notRoot, present⟩ := sound.2 inner member
    exact ⟨notRoot, by omega⟩

/-- What is in the table is neither of the two symbols that are added next. -/
theorem ne_nextIndex_of_lt {builder : SymbolBuilder} {index : SymbolIndex}
    (old : index.value < builder.table.size) :
    index ≠ builder.nextIndex ∧ index ≠ builder.nextIndex.next := by
  constructor
  · rintro rfl
    exact Nat.lt_irrefl _ old
  · rintro rfl
    exact Nat.not_succ_le_self _ (Nat.le_of_succ_le old)

/-- What is registered behind a new symbol in a scope of its own belongs to that symbol. -/
theorem Registers.within {builder after : SymbolBuilder} (sound : builder.IsSound) {name : String}
    {kind : DeclarationKind} {type : Option Ty} {span bodySpan : Span} {content : List Declaration}
    (inside : ((builder.add name kind.symbolKind type span).enter bodySpan).Registers after content) :
    builder.Registers after.leave [.withBody ⟨name, kind, some builder.nextIndex⟩ content] := by
  have ownerSound := (registers_add sound name kind type span).isSound sound
  have ownerEntry := shape?_add sound name kind.symbolKind type span
  have bodyEntry := shape?_add ownerSound "" .scope none bodySpan
  have ownerSize := builder.size_add name kind.symbolKind type span
  have open_ := sound.scope_lt_size
  have grown := inside.size_le
  -- two symbols come first, the owner and the scope behind it; what is inside lies above them
  generalize owner : builder.add name kind.symbolKind type span = withOwner at *
  have sameScope : withOwner.scope = builder.scope := by rw [← owner]; rfl
  have next : withOwner.nextIndex = builder.nextIndex.next := by
    simp [nextIndex, SymbolIndex.next, ownerSize]
  have scope : (withOwner.enter bodySpan).scope = builder.nextIndex.next := next
  have size : (withOwner.enter bodySpan).table.size = builder.table.size + 2 := by
    rw [show (withOwner.enter bodySpan).table.size = withOwner.table.size + 1 from
      withOwner.size_add _ _ _ _, ownerSize]
  replace bodyEntry : ∀ index, (withOwner.enter bodySpan).table.shape? index = _ := bodyEntry
  rw [sameScope, next] at bodyEntry
  have entries : entriesOf [.withBody ⟨name, kind, some builder.nextIndex⟩ content] =
      [builder.nextIndex, builder.nextIndex.next] := by simp [Declaration.entries]
  have scopeOld := ne_nextIndex_of_lt open_
  have distinct : builder.nextIndex ≠ builder.nextIndex.next := by
    simp [nextIndex, SymbolIndex.next]
  constructor
  case inner_eq =>
    rw [leave, inside.inner_eq, ← owner]
    rfl
  case size_le => simp only [leave]; omega
  case scope_entry =>
    -- the scope around sees the owner and the new scope, and nothing of what is inside
    rw [leave, inside.others_kept _ (by omega) (scope ▸ scopeOld.2), bodyEntry, if_neg scopeOld.2,
      if_pos rfl, ownerEntry, if_neg scopeOld.1, if_pos rfl, entries]
    cases builder.table.shape? builder.scope <;> simp
  case others_kept =>
    intro index old other
    have fresh := ne_nextIndex_of_lt old
    rw [leave, inside.others_kept _ (by omega) (scope ▸ fresh.2), bodyEntry, if_neg fresh.2,
      if_neg other, ownerEntry, if_neg fresh.1, if_neg other]
  case entries_new =>
    rw [entries]
    simp [nextIndex, SymbolIndex.next, leave]
    omega
  case increasing =>
    rw [entries]
    simp [nextIndex, SymbolIndex.next]
  case placed =>
    intro table agrees declaration member
    obtain rfl := List.mem_singleton.mp member
    simp only [leave] at agrees
    refine .withBody ⟨rfl, span, ?_⟩ ⟨⟨bodySpan, ?_⟩, inside.increasing⟩ ?_
    -- the owner, the scope of its body with all that was put there, and the inside itself
    · rw [agrees builder.nextIndex (Nat.le_refl _) (by simp [nextIndex]; omega),
        inside.others_kept _ (by simp [nextIndex, size]) (scope ▸ distinct), bodyEntry,
        if_neg distinct, if_neg scopeOld.1.symm, ownerEntry, if_pos rfl]
    · rw [agrees builder.nextIndex.next (by simp [nextIndex, SymbolIndex.next])
        (by simp [nextIndex, SymbolIndex.next]; omega), ← scope, inside.scope_entry, scope, bodyEntry,
        if_pos rfl]
      rfl
    · rw [← scope]
      exact inside.placed table (agrees.narrow (by omega) (Nat.le_refl _))

end SymbolBuilder

open SymbolBuilder

namespace Registration

variable {α β : Type} (builder : SymbolBuilder)

theorem run_pure (result : α) : (pure result : Registration α).run builder = (result, builder) := rfl

theorem run_bind (step : Registration α) (next : α → Registration β) :
    (step >>= next).run builder = (next (step.run builder).1).run (step.run builder).2 := rfl

theorem run_add (name : String) (kind : SymbolKind) (type : Option Ty) (span : Span) :
    (add name kind type span).run builder = (builder.nextIndex, builder.add name kind type span) :=
  rfl

theorem run_within (span : Span) (content : Registration α) :
    (within span content).run builder =
      ((content.run (builder.enter span)).1, (content.run (builder.enter span)).2.leave) := rfl

end Registration

theorem Registration.named_value (binder : Option Identifier) (span : Span) :
    (named binder span).value = (binder.map Spanned.value).getD Ty.anonymous := by
  cases binder <;> rfl

theorem Registration.registers_members (members : List Member) {builder : SymbolBuilder}
    (sound : builder.IsSound) :
    builder.Registers ((members.mapM Registration.member).run builder).2
      (Member.declarations ((members.mapM Registration.member).run builder).1) := by
  induction members generalizing builder with
  | nil => exact .refl builder
  | cons first rest ih =>
    have step := registers_add sound first.binder.value .binding (some first.type.value)
      first.binder.span
    have further := step.trans sound (ih (step.isSound sound))
    simp only [List.mapM_cons, member, run_bind, run_add, run_pure]
    exact further

open Registration (named named_value run_bind run_add run_within run_pure registers_members)

mutual

theorem Node.registers_register (node : Node) {builder : SymbolBuilder} (sound : builder.IsSound) :
    builder.Registers (node.register.run builder).2 (node.register.run builder).1.declarations := by
  cases node with
  | procedure span head body =>
    let binder := named head.binder span
    have owner := registers_add sound binder.value .procedure (some head.type) binder.span
    cases body with
    | none =>
      simp only [Node.register, run_bind, run_add, run_pure, Node.declarations, ProcedureHead.heading,
        ← named_value _ span]
      exact owner
    | some body =>
      -- the scope of the body is open while parameters and body are registered, and left behind
      -- them
      have inside := (owner.isSound sound).enter body.span
      have parameters := registers_members head.parameters inside
      have rest := body.registers_register (parameters.isSound inside)
      have whole := (parameters.trans inside rest).within sound
      simp only [Node.register, run_bind, run_add, run_within, run_pure, Node.declarations,
        ProcedureHead.heading, ← named_value _ span]
      exact whole
  | struct span declared =>
    let binder := named declared.binder span
    have owner := registers_add sound binder.value .struct (some declared.type) binder.span
    have inside := (owner.isSound sound).enter span
    have whole := (registers_members declared.fields inside).within sound
    simp only [Node.register, run_bind, run_add, run_within, run_pure, Node.declarations,
      Struct.heading, ← named_value _ span]
    exact whole
  | binding span head initializer =>
    -- the initial value declares before the binding does
    have first := Expr.registers_registerOption initializer sound
    have second := registers_add (first.isSound sound) head.binder.value .binding
      (head.type.map Spanned.value) head.binder.span
    simp only [Node.register, run_bind, run_add, run_pure, Node.declarations]
    exact first.trans sound second
  | load span path => exact .refl builder
  | expression inner =>
    simpa only [Node.register, run_bind, run_pure, Node.declarations] using inner.registers_register sound
  | assignment span target operator value =>
    have first := target.registers_register sound
    have second := value.registers_register (first.isSound sound)
    simpa only [Node.register, run_bind, run_pure, Node.declarations] using first.trans sound second

theorem Expr.registers_register (expression : Expr) {builder : SymbolBuilder}
    (sound : builder.IsSound) :
    builder.Registers (expression.register.run builder).2
      (expression.register.run builder).1.declarations := by
  obtain ⟨info, form⟩ := expression
  simpa only [Expr.register, run_bind, run_pure, Expr.declarations] using form.registers_register sound

theorem Form.registers_register (form : Form) {builder : SymbolBuilder} (sound : builder.IsSound) :
    builder.Registers (form.register.run builder).2 (form.register.run builder).1.declarations := by
  -- the declarations of a form are those of its parts, from left to right
  cases form with
  | field target name =>
    simpa only [Form.register, run_bind, run_pure, Form.declarations] using
      target.registers_register sound
  | call callee arguments =>
    have first := callee.registers_register sound
    have second := Expr.registers_registerAll arguments (first.isSound sound)
    simpa only [Form.register, run_bind, run_pure, Form.declarations] using first.trans sound second
  | binary left operator right =>
    have first := left.registers_register sound
    have second := right.registers_register (first.isSound sound)
    simpa only [Form.register, run_bind, run_pure, Form.declarations] using first.trans sound second
  | unary operator operand =>
    simpa only [Form.register, run_bind, run_pure, Form.declarations] using
      operand.registers_register sound
  | cast operand type =>
    simpa only [Form.register, run_bind, run_pure, Form.declarations] using
      operand.registers_register sound
  | block nodes =>
    simpa only [Form.register, run_bind, run_pure, Form.declarations] using
      Node.registers_registerAll nodes sound
  | conditional isNegated condition consequent alternative =>
    have first := condition.registers_register sound
    have second := consequent.registers_register (first.isSound sound)
    have third := Expr.registers_registerOption alternative (second.isSound (first.isSound sound))
    simpa only [Form.register, run_bind, run_pure, Form.declarations] using
      first.trans sound (second.trans (first.isSound sound) third)
  | loop isNegated condition body alternative =>
    have first := condition.registers_register sound
    have second := body.registers_register (first.isSound sound)
    have third := Expr.registers_registerOption alternative (second.isSound (first.isSound sound))
    simpa only [Form.register, run_bind, run_pure, Form.declarations] using
      first.trans sound (second.trans (first.isSound sound) third)
  | delete operand =>
    simpa only [Form.register, run_bind, run_pure, Form.declarations] using
      operand.registers_register sound
  | defer node =>
    simpa only [Form.register, run_bind, run_pure, Form.declarations] using node.registers_register sound
  | bool | integer | real | text | character | reference | new | uninitialized =>
    exact .refl builder

theorem Expr.registers_registerOption (expression : Option Expr) {builder : SymbolBuilder}
    (sound : builder.IsSound) :
    builder.Registers ((Expr.registerOption expression).run builder).2
      (Expr.declarationsOption ((Expr.registerOption expression).run builder).1) := by
  cases expression with
  | none => exact .refl builder
  | some inner =>
    simpa only [Expr.registerOption, run_bind, run_pure, Expr.declarationsOption] using
      inner.registers_register sound

theorem Expr.registers_registerAll (expressions : List Expr) {builder : SymbolBuilder}
    (sound : builder.IsSound) :
    builder.Registers ((Expr.registerAll expressions).run builder).2
      (Expr.declarationsAll ((Expr.registerAll expressions).run builder).1) := by
  cases expressions with
  | nil => exact .refl builder
  | cons first rest =>
    have step := first.registers_register sound
    have further := Expr.registers_registerAll rest (step.isSound sound)
    simpa only [Expr.registerAll, run_bind, run_pure, Expr.declarationsAll] using step.trans sound further

theorem Node.registers_registerAll (nodes : List Node) {builder : SymbolBuilder}
    (sound : builder.IsSound) :
    builder.Registers ((Node.registerAll nodes).run builder).2
      (Node.declarationsAll ((Node.registerAll nodes).run builder).1) := by
  cases nodes with
  | nil => exact .refl builder
  | cons first rest =>
    have step := first.registers_register sound
    have further := Node.registers_registerAll rest (step.isSound sound)
    simpa only [Node.registerAll, run_bind, run_pure, Node.declarationsAll] using step.trans sound further

end

theorem Registration.registers_files (files : List (List Node)) {builder : SymbolBuilder}
    (sound : builder.IsSound) :
    builder.Registers ((files.mapM Registration.file).run builder).2
      (((files.mapM Registration.file).run builder).1.flatMap Node.declarationsAll) := by
  induction files generalizing builder with
  | nil => exact .refl builder
  | cons first rest ih =>
    -- what is registered is the file with its usage marked
    have step := Node.registers_registerAll (first.map (Node.markUsage false false)) sound
    have further := step.trans sound (ih (step.isSound sound))
    simp only [List.mapM_cons, run_bind, run_pure, List.flatMap_cons]
    exact further

/-- All scopes are left when the last file is registered, so that the table is finished. -/
theorem Registration.finish_files (files : List (List Node)) :
    ((files.mapM Registration.file).run .start).2.finish = .ok (Registered.ofFiles files).table := by
  have registers := registers_files files SymbolBuilder.isSound_start
  have isGlobal : ((files.mapM Registration.file).run .start).2.isInGlobalScope = true := by
    rw [SymbolBuilder.isInGlobalScope, registers.inner_eq]
    rfl
  rw [SymbolBuilder.finish, if_pos isGlobal]
  rfl

/-- The declarations of all files. -/
def Registered.declarations (registered : Registered) : List Declaration :=
  registered.files.flatMap Node.declarationsAll

/-- The global scope of a table consists of some declarations. -/
structure SymbolTable.Declares (table : SymbolTable) (declared : List Declaration) : Prop where
  globals_eq : table.globals = entriesOf declared
  increasing : (entriesOf declared).Pairwise (·.value < ·.value)
  root_lt_size : SymbolTable.root.value < table.size
  placed : ∀ declaration ∈ declared, declaration.IsIn table SymbolTable.root

/-- The global scope of a unit consists of what its files declare. -/
theorem Registered.declares_declarations (files : List (List Node)) :
    (ofFiles files).table.Declares (ofFiles files).declarations := by
  have registers := Registration.registers_files files isSound_start
  constructor
  case globals_eq =>
    rw [SymbolTable.globals, SymbolTable.children_eq]
    rw [show (ofFiles files).table.shape? SymbolTable.root = _ from registers.scope_entry]
    rfl
  case increasing => exact registers.increasing
  case root_lt_size => exact Nat.lt_of_lt_of_le Nat.zero_lt_one registers.size_le
  case placed => exact registers.placed _ fun _ _ _ => rfl

end Cadence
