import Cadence.Symbol.Registration

/-!
# The types in syntax trees

What holds of every type in a tree, whether it is written down or found out, and of every name
within a type. Neither marking how values are used nor registering declarations changes a type, and
the types of a table come out of the trees that are registered in it.
-/
namespace Cadence

open Source (Span)

section Names

variable (holds : Identifier → Option SymbolIndex → Prop)

mutual

/-- Something holds of every name within a type and what it records. -/
def Ty.AllNames : Ty → Prop
  | .builtin _ => True
  | .pointer target => target.AllNames
  | .procedure parameters _ result => Ty.AllParameterNames parameters ∧ result.AllNames
  | .struct _ fields => Ty.AllFieldNames fields
  | .named path symbol => holds path symbol

def Ty.AllParameterNames : List (Option String × Ty) → Prop
  | [] => True
  | (_, type) :: rest => type.AllNames ∧ Ty.AllParameterNames rest

def Ty.AllFieldNames : List (String × Ty) → Prop
  | [] => True
  | (_, type) :: rest => type.AllNames ∧ Ty.AllFieldNames rest

end

theorem Ty.allParameterNames_iff (parameters : List (Option String × Ty)) :
    Ty.AllParameterNames holds parameters ↔ ∀ parameter ∈ parameters, parameter.2.AllNames holds := by
  induction parameters with
  | nil => simp [AllParameterNames]
  | cons first rest ih => simp [AllParameterNames, ih]

theorem Ty.allFieldNames_iff (fields : List (String × Ty)) :
    Ty.AllFieldNames holds fields ↔ ∀ field ∈ fields, field.2.AllNames holds := by
  induction fields with
  | nil => simp [AllFieldNames]
  | cons first rest ih => simp [AllFieldNames, ih]

end Names

section Names

variable {holds weaker : Identifier → Option SymbolIndex → Prop}

mutual

theorem Ty.AllNames.mono {type : Ty} (names : type.AllNames holds)
    (implies : ∀ path symbol, holds path symbol → weaker path symbol) : type.AllNames weaker := by
  cases type with
  | builtin => trivial
  | pointer target =>
    have inner : target.AllNames holds := names
    exact inner.mono implies
  | procedure parameters isVariadic result =>
    exact ⟨Ty.allParameterNames_mono names.1 implies, names.2.mono implies⟩
  | struct name fields => exact Ty.allFieldNames_mono names implies
  | named path symbol => exact implies path symbol names

theorem Ty.allParameterNames_mono {parameters : List (Option String × Ty)}
    (names : Ty.AllParameterNames holds parameters)
    (implies : ∀ path symbol, holds path symbol → weaker path symbol) :
    Ty.AllParameterNames weaker parameters := by
  match parameters with
  | [] => trivial
  | (_, type) :: rest => exact ⟨names.1.mono implies, Ty.allParameterNames_mono names.2 implies⟩

theorem Ty.allFieldNames_mono {fields : List (String × Ty)}
    (names : Ty.AllFieldNames holds fields)
    (implies : ∀ path symbol, holds path symbol → weaker path symbol) :
    Ty.AllFieldNames weaker fields := by
  match fields with
  | [] => trivial
  | (_, type) :: rest => exact ⟨names.1.mono implies, Ty.allFieldNames_mono names.2 implies⟩

end

end Names

section Trees

variable (holds : Ty → Prop)

def ProcedureHead.AllTypes (head : ProcedureHead) : Prop :=
  (∀ parameter ∈ head.parameters, holds parameter.type.value) ∧
    ∀ result ∈ head.result, holds result.value

def Struct.AllTypes (struct : Struct) : Prop := ∀ field ∈ struct.fields, holds field.type.value

def BindingHead.AllTypes (head : BindingHead) : Prop := ∀ type ∈ head.type, holds type.value

mutual

/-- Something holds of every type in a node: of those that are written down and of those of
expressions. -/
def Node.AllTypes : Node → Prop
  | .procedure _ head body => head.AllTypes holds ∧ Expr.AllTypesOption body
  | .struct _ declared => declared.AllTypes holds
  | .binding _ head initializer => head.AllTypes holds ∧ Expr.AllTypesOption initializer
  | .load _ _ => True
  | .expression inner => inner.AllTypes
  | .assignment _ target _ value => target.AllTypes ∧ value.AllTypes

def Expr.AllTypes : Expr → Prop
  | .mk info form => (∀ type ∈ info.type, holds type) ∧ form.AllTypes

def Form.AllTypes : Form → Prop
  | .field target _ => target.AllTypes
  | .call callee arguments => callee.AllTypes ∧ Expr.AllTypesAll arguments
  | .binary left _ right => left.AllTypes ∧ right.AllTypes
  | .unary _ operand => operand.AllTypes
  | .cast operand type => operand.AllTypes ∧ holds type.value
  | .block nodes => Node.AllTypesAll nodes
  | .conditional _ condition consequent alternative =>
    condition.AllTypes ∧ consequent.AllTypes ∧ Expr.AllTypesOption alternative
  | .loop _ condition body alternative =>
    condition.AllTypes ∧ body.AllTypes ∧ Expr.AllTypesOption alternative
  | .new type => holds type.value
  | .delete operand => operand.AllTypes
  | .defer node => node.AllTypes
  | .bool _ | .integer _ _ | .real _ | .text _ | .character _ | .reference _ _ | .uninitialized =>
    True

def Expr.AllTypesOption : Option Expr → Prop
  | none => True
  | some inner => inner.AllTypes

def Expr.AllTypesAll : List Expr → Prop
  | [] => True
  | first :: rest => first.AllTypes ∧ Expr.AllTypesAll rest

def Node.AllTypesAll : List Node → Prop
  | [] => True
  | first :: rest => first.AllTypes ∧ Node.AllTypesAll rest

end

theorem Node.allTypesAll_iff (nodes : List Node) :
    Node.AllTypesAll holds nodes ↔ ∀ node ∈ nodes, node.AllTypes holds := by
  induction nodes with
  | nil => simp [AllTypesAll]
  | cons first rest ih => simp [AllTypesAll, ih]

theorem Expr.allTypesAll_iff (expressions : List Expr) :
    Expr.AllTypesAll holds expressions ↔ ∀ expression ∈ expressions, expression.AllTypes holds := by
  induction expressions with
  | nil => simp [AllTypesAll]
  | cons first rest ih => simp [AllTypesAll, ih]

section Mono

variable {holds} {weaker : Ty → Prop}

mutual

theorem Node.AllTypes.mono {node : Node} (types : node.AllTypes holds)
    (implies : ∀ type, holds type → weaker type) : node.AllTypes weaker := by
  cases node with
  | procedure span head body =>
    exact ⟨⟨fun parameter member => implies _ (types.1.1 parameter member),
      fun result known => implies _ (types.1.2 result known)⟩, Expr.allTypesOption_mono types.2 implies⟩
  | struct span declared => exact fun field member => implies _ (types field member)
  | binding span head initializer =>
    exact ⟨fun type known => implies _ (types.1 type known), Expr.allTypesOption_mono types.2 implies⟩
  | load => trivial
  | expression inner => exact Expr.AllTypes.mono types implies
  | assignment span target operator value => exact ⟨types.1.mono implies, types.2.mono implies⟩

theorem Expr.AllTypes.mono {expression : Expr} (types : expression.AllTypes holds)
    (implies : ∀ type, holds type → weaker type) : expression.AllTypes weaker := by
  obtain ⟨info, form⟩ := expression
  exact ⟨fun type known => implies _ (types.1 type known), Form.AllTypes.mono types.2 implies⟩

theorem Form.AllTypes.mono {form : Form} (types : form.AllTypes holds)
    (implies : ∀ type, holds type → weaker type) : form.AllTypes weaker := by
  cases form with
  | field target name => exact Expr.AllTypes.mono types implies
  | call callee arguments => exact ⟨types.1.mono implies, Expr.allTypesAll_mono types.2 implies⟩
  | binary left operator right => exact ⟨types.1.mono implies, types.2.mono implies⟩
  | unary operator operand => exact Expr.AllTypes.mono types implies
  | cast operand type => exact ⟨types.1.mono implies, implies _ types.2⟩
  | block nodes => exact Node.allTypesAll_mono types implies
  | conditional isNegated condition consequent alternative =>
    exact ⟨types.1.mono implies, types.2.1.mono implies, Expr.allTypesOption_mono types.2.2 implies⟩
  | loop isNegated condition body alternative =>
    exact ⟨types.1.mono implies, types.2.1.mono implies, Expr.allTypesOption_mono types.2.2 implies⟩
  | new type => exact implies _ types
  | delete operand => exact Expr.AllTypes.mono types implies
  | defer node => exact Node.AllTypes.mono types implies
  | bool | integer | real | text | character | reference | uninitialized => trivial

theorem Expr.allTypesOption_mono {expression : Option Expr}
    (types : Expr.AllTypesOption holds expression) (implies : ∀ type, holds type → weaker type) :
    Expr.AllTypesOption weaker expression := by
  cases expression with
  | none => trivial
  | some inner => exact Expr.AllTypes.mono types implies

theorem Expr.allTypesAll_mono {expressions : List Expr}
    (types : Expr.AllTypesAll holds expressions) (implies : ∀ type, holds type → weaker type) :
    Expr.AllTypesAll weaker expressions := by
  cases expressions with
  | nil => trivial
  | cons first rest => exact ⟨types.1.mono implies, Expr.allTypesAll_mono types.2 implies⟩

theorem Node.allTypesAll_mono {nodes : List Node} (types : Node.AllTypesAll holds nodes)
    (implies : ∀ type, holds type → weaker type) : Node.AllTypesAll weaker nodes := by
  cases nodes with
  | nil => trivial
  | cons first rest => exact ⟨types.1.mono implies, Node.allTypesAll_mono types.2 implies⟩

end

end Mono

mutual

/-- How values are used has nothing to do with types. -/
theorem Node.allTypes_markUsage (required tail : Bool) (node : Node) :
    (node.markUsage required tail).AllTypes holds ↔ node.AllTypes holds := by
  cases node with
  | procedure span head body =>
    simp only [Node.markUsage, Node.AllTypes, Expr.allTypes_markOption]
  | struct | load => rfl
  | binding span head initializer =>
    simp only [Node.markUsage, Node.AllTypes, Expr.allTypes_markOption]
  | expression inner => simp only [Node.markUsage, Node.AllTypes, inner.allTypes_markUsage]
  | assignment span target operator value =>
    simp only [Node.markUsage, Node.AllTypes, target.allTypes_markUsage, value.allTypes_markUsage]

theorem Expr.allTypes_markUsage (required tail : Bool) (expression : Expr) :
    (expression.markUsage required tail).AllTypes holds ↔ expression.AllTypes holds := by
  obtain ⟨info, form⟩ := expression
  simp only [Expr.markUsage, Expr.AllTypes, form.allTypes_markUsage]

theorem Form.allTypes_markUsage (required : Bool) (form : Form) :
    (form.markUsage required).AllTypes holds ↔ form.AllTypes holds := by
  cases form with
  | field target name => simp only [Form.markUsage, Form.AllTypes, target.allTypes_markUsage]
  | call callee arguments =>
    simp only [Form.markUsage, Form.AllTypes, callee.allTypes_markUsage,
      Expr.allTypes_markOperands]
  | binary left operator right =>
    simp only [Form.markUsage, Form.AllTypes, left.allTypes_markUsage, right.allTypes_markUsage]
  | unary operator operand =>
    simp only [Form.markUsage, Form.AllTypes, operand.allTypes_markUsage]
  | cast operand type => simp only [Form.markUsage, Form.AllTypes, operand.allTypes_markUsage]
  | block nodes => simp only [Form.markUsage, Form.AllTypes, Node.allTypes_markSequence]
  | conditional isNegated condition consequent alternative =>
    simp only [Form.markUsage, Form.AllTypes, condition.allTypes_markUsage,
      consequent.allTypes_markUsage, Expr.allTypes_markOption]
  | loop isNegated condition body alternative =>
    simp only [Form.markUsage, Form.AllTypes, condition.allTypes_markUsage,
      body.allTypes_markUsage, Expr.allTypes_markOption]
  | delete operand => simp only [Form.markUsage, Form.AllTypes, operand.allTypes_markUsage]
  | defer node => simp only [Form.markUsage, Form.AllTypes, node.allTypes_markUsage]
  | bool | integer | real | text | character | reference | new | uninitialized => rfl

theorem Expr.allTypes_markOption (required tail : Bool) (expression : Option Expr) :
    Expr.AllTypesOption holds (Expr.markOption required tail expression) ↔
      Expr.AllTypesOption holds expression := by
  cases expression with
  | none => rfl
  | some inner => simp only [Expr.markOption, Expr.AllTypesOption, inner.allTypes_markUsage]

theorem Expr.allTypes_markOperands (expressions : List Expr) :
    Expr.AllTypesAll holds (Expr.markOperands expressions) ↔ Expr.AllTypesAll holds expressions := by
  cases expressions with
  | nil => rfl
  | cons first rest =>
    simp only [Expr.markOperands, Expr.AllTypesAll, first.allTypes_markUsage,
      Expr.allTypes_markOperands rest]

theorem Node.allTypes_markSequence (required : Bool) (nodes : List Node) :
    Node.AllTypesAll holds (Node.markSequence required nodes) ↔ Node.AllTypesAll holds nodes := by
  match nodes with
  | [] => rfl
  | [last] => simp only [Node.markSequence, Node.AllTypesAll, last.allTypes_markUsage]
  | first :: second :: rest =>
    simp only [Node.markSequence, Node.AllTypesAll, first.allTypes_markUsage,
      Node.allTypes_markSequence required (second :: rest)]

end

end Trees

/-- Something holds of the types of all symbols. -/
def SymbolTable.AllTypes (holds : Ty → Prop) (table : SymbolTable) : Prop :=
  ∀ index symbol, table.symbol? index = some symbol → ∀ type ∈ symbol.type, holds type

theorem SymbolTable.AllTypes.of_type? {holds : Ty → Prop} {table : SymbolTable}
    (types : table.AllTypes holds) {index : SymbolIndex} {type : Ty}
    (known : table.type? index = some type) : holds type := by
  obtain ⟨symbol, found, typed⟩ := Option.bind_eq_some_iff.mp known
  exact types index symbol found type typed

theorem SymbolTable.allTypes_setType {holds : Ty → Prop} {table : SymbolTable}
    (types : table.AllTypes holds) (index : SymbolIndex) {type : Option Ty}
    (new : ∀ found ∈ type, holds found) : (table.setType index type).AllTypes holds := by
  intro other symbol found
  simp only [setType, modify, symbol?, Array.getElem?_modify] at found
  split at found
  · obtain ⟨old, _, rfl⟩ := Option.map_eq_some_iff.mp found
    exact new
  · exact types other symbol found

/-- A symbol of a table that has grown is the new one or an old one, apart from what belongs to it. -/
theorem SymbolTable.exists_of_symbol?_push {table : SymbolTable} {scope index : SymbolIndex}
    {symbol found : Symbol} (present : (table.push scope symbol).symbol? index = some found) :
    ∃ origin children, (origin = symbol ∨ table.symbol? index = some origin) ∧
      found = { origin with children } := by
  have grown (origin : Symbol) (known : (table.symbols.push symbol)[index.value]? = some origin) :
      origin = symbol ∨ table.symbol? index = some origin := by
    rw [Array.getElem?_push] at known
    split at known
    · exact .inl (Option.some.inj known).symm
    · exact .inr known
  simp only [push, modify, symbol?, Array.getElem?_modify] at present
  split at present
  · obtain ⟨origin, known, rfl⟩ := Option.map_eq_some_iff.mp present
    exact ⟨origin, _, grown origin known, rfl⟩
  · exact ⟨found, found.children, grown found present, rfl⟩

theorem SymbolTable.allTypes_push {holds : Ty → Prop} {table : SymbolTable}
    (types : table.AllTypes holds) (scope : SymbolIndex) {symbol : Symbol}
    (new : ∀ type ∈ symbol.type, holds type) : (table.push scope symbol).AllTypes holds := by
  intro index found present
  obtain ⟨origin, children, rfl | old, rfl⟩ := exists_of_symbol?_push present
  · exact new
  · exact types index origin old

section Registration

variable {holds : Identifier → Option SymbolIndex → Prop}

theorem ProcedureHead.allNames_type {head : ProcedureHead}
    (types : head.AllTypes (Ty.AllNames holds)) : head.type.AllNames holds := by
  refine ⟨?_, ?_⟩
  · rw [Ty.allParameterNames_iff]
    intro parameter member
    obtain ⟨declared, declaredMember, rfl⟩ := List.mem_map.mp member
    exact types.1 declared declaredMember
  · cases known : head.result with
    | none => trivial
    | some result => exact types.2 result known

theorem Struct.allNames_type {struct : Struct} (types : struct.AllTypes (Ty.AllNames holds)) :
    struct.type.AllNames holds := by
  refine (Ty.allFieldNames_iff holds _).mpr fun field member => ?_
  obtain ⟨declared, declaredMember, rfl⟩ := List.mem_map.mp member
  exact types declared declaredMember

/-- A step keeps what holds of the table, and its result has a property. -/
def Registration.Keeps {α : Type} (invariant : SymbolTable → Prop) (step : Registration α)
    (property : α → Prop) : Prop :=
  ∀ builder : SymbolBuilder, invariant builder.table →
    invariant (step.run builder).2.table ∧ property (step.run builder).1

namespace Registration.Keeps

variable {α β : Type} {invariant : SymbolTable → Prop} {property : α → Prop} {final : β → Prop}

theorem pure {result : α} (known : property result) : Keeps invariant (pure result) property :=
  fun _ kept => ⟨kept, known⟩

theorem bind {step : Registration α} {next : α → Registration β} (first : Keeps invariant step property)
    (second : ∀ result, property result → Keeps invariant (next result) final) :
    Keeps invariant (step >>= next) final := by
  intro builder kept
  obtain ⟨kept, known⟩ := first builder kept
  exact second _ known _ kept

theorem mapM {step : β → Registration α} {items : List β}
    (each : ∀ item ∈ items, Keeps invariant (step item) property) :
    Keeps invariant (items.mapM step) fun results => ∀ result ∈ results, property result := by
  induction items with
  | nil => exact pure (List.forall_mem_nil _)
  | cons first rest ih =>
    obtain ⟨own, others⟩ := List.forall_mem_cons.mp each
    rw [List.mapM_cons]
    exact bind own fun result known => bind (ih others) fun results more =>
      pure (List.forall_mem_cons.mpr ⟨known, more⟩)

theorem add {name : String} {kind : SymbolKind} {type : Option Ty} {span : Span}
    (grows : ∀ builder : SymbolBuilder, invariant builder.table →
      invariant (builder.add name kind type span).table) :
    Keeps invariant (Registration.add name kind type span) fun _ => True :=
  fun builder kept => ⟨grows builder kept, trivial⟩

theorem within {span : Span} {content : Registration α}
    (opens : ∀ builder : SymbolBuilder, invariant builder.table → invariant (builder.enter span).table)
    (inside : Keeps invariant content property) :
    Keeps invariant (Registration.within span content) property :=
  fun builder kept => inside _ (opens builder kept)

end Registration.Keeps

/-- A step of registration keeps what holds of the names in the types of the table. -/
abbrev Registration.KeepsNames {α : Type} (holds : Identifier → Option SymbolIndex → Prop) :
    Registration α → (α → Prop) → Prop :=
  Registration.Keeps (SymbolTable.AllTypes (Ty.AllNames holds))

namespace Registration

theorem keepsNames_add {name : String} {kind : SymbolKind} {type : Option Ty} {span : Span}
    (known : ∀ found ∈ type, found.AllNames holds) :
    KeepsNames holds (add name kind type span) fun _ => True :=
  .add fun _ types => SymbolTable.allTypes_push types _ known

theorem keepsNames_within {α : Type} {span : Span} {content : Registration α} {property : α → Prop}
    (inside : KeepsNames holds content property) : KeepsNames holds (within span content) property :=
  .within (fun _ types => SymbolTable.allTypes_push types _ (by simp)) inside

theorem keepsNames_members {members : List Member}
    (known : ∀ member ∈ members, member.type.value.AllNames holds) :
    KeepsNames holds (members.mapM member) fun registered =>
      ∀ member ∈ registered, member.type.value.AllNames holds := by
  refine .mapM fun declared inside => ?_
  exact .bind (keepsNames_add (by simpa using known declared inside)) fun symbol _ =>
    .pure (known declared inside)

end Registration

open Registration (KeepsNames keepsNames_add keepsNames_within keepsNames_members)

mutual

theorem Node.keeps_register {node : Node} (types : node.AllTypes (Ty.AllNames holds)) :
    KeepsNames holds node.register (Node.AllTypes (Ty.AllNames holds)) := by
  -- a symbol is stored with a type that is written down, and nothing else is stored
  cases node with
  | procedure span head body =>
    obtain ⟨headTypes, bodyTypes⟩ := types
    cases body with
    | none =>
      exact .bind (keepsNames_add (by simpa using head.allNames_type headTypes)) fun symbol _ =>
        .pure ⟨headTypes, trivial⟩
    | some body =>
      refine .bind (keepsNames_add (by simpa using head.allNames_type headTypes)) fun symbol _ => keepsNames_within ?_
      refine .bind (keepsNames_members headTypes.1) fun parameters known => ?_
      exact .bind (Expr.keeps_register bodyTypes) fun body bodyKnown =>
        .pure ⟨⟨known, headTypes.2⟩, bodyKnown⟩
  | struct span declared =>
    refine .bind (keepsNames_add (by simpa using declared.allNames_type types)) fun symbol _ => keepsNames_within ?_
    exact .bind (keepsNames_members types) fun fields known => .pure known
  | binding span head initializer =>
    refine .bind (Expr.keeps_registerOption types.2) fun initializer known => ?_
    refine .bind (keepsNames_add ?_) fun symbol _ => .pure ⟨types.1, known⟩
    simpa [BindingHead.AllTypes] using types.1
  | load span path => exact .pure trivial
  | expression inner => exact .bind (Expr.keeps_register types) fun inner known => .pure known
  | assignment span target operator value =>
    exact .bind (Expr.keeps_register types.1) fun target targetKnown =>
      .bind (Expr.keeps_register types.2) fun value valueKnown => .pure ⟨targetKnown, valueKnown⟩

theorem Expr.keeps_register {expression : Expr}
    (types : expression.AllTypes (Ty.AllNames holds)) :
    KeepsNames holds expression.register (Expr.AllTypes (Ty.AllNames holds)) := by
  obtain ⟨info, form⟩ := expression
  exact .bind (Form.keeps_register types.2) fun form known => .pure ⟨types.1, known⟩

theorem Form.keeps_register {form : Form} (types : form.AllTypes (Ty.AllNames holds)) :
    KeepsNames holds form.register (Form.AllTypes (Ty.AllNames holds)) := by
  -- registration leaves the types in the tree as they are
  cases form with
  | field target name => exact .bind (Expr.keeps_register types) fun target known => .pure known
  | call callee arguments =>
    exact .bind (Expr.keeps_register types.1) fun callee calleeKnown =>
      .bind (Expr.keeps_registerAll types.2) fun arguments known => .pure ⟨calleeKnown, known⟩
  | binary left operator right =>
    exact .bind (Expr.keeps_register types.1) fun left leftKnown =>
      .bind (Expr.keeps_register types.2) fun right rightKnown => .pure ⟨leftKnown, rightKnown⟩
  | unary operator operand =>
    exact .bind (Expr.keeps_register types) fun operand known => .pure known
  | cast operand type =>
    exact .bind (Expr.keeps_register types.1) fun operand known => .pure ⟨known, types.2⟩
  | block nodes => exact .bind (Node.keeps_registerAll types) fun nodes known => .pure known
  | conditional isNegated condition consequent alternative =>
    exact .bind (Expr.keeps_register types.1) fun condition first =>
      .bind (Expr.keeps_register types.2.1) fun consequent second =>
        .bind (Expr.keeps_registerOption types.2.2) fun alternative third =>
          .pure ⟨first, second, third⟩
  | loop isNegated condition body alternative =>
    exact .bind (Expr.keeps_register types.1) fun condition first =>
      .bind (Expr.keeps_register types.2.1) fun body second =>
        .bind (Expr.keeps_registerOption types.2.2) fun alternative third =>
          .pure ⟨first, second, third⟩
  | new type => exact .pure types
  | delete operand => exact .bind (Expr.keeps_register types) fun operand known => .pure known
  | defer node => exact .bind (Node.keeps_register types) fun node known => .pure known
  | bool | integer | real | text | character | reference | uninitialized => exact .pure trivial

theorem Expr.keeps_registerOption {expression : Option Expr}
    (types : Expr.AllTypesOption (Ty.AllNames holds) expression) :
    KeepsNames holds (Expr.registerOption expression)
      (Expr.AllTypesOption (Ty.AllNames holds)) := by
  cases expression with
  | none => exact .pure trivial
  | some inner => exact .bind (Expr.keeps_register types) fun inner known => .pure known

theorem Expr.keeps_registerAll {expressions : List Expr}
    (types : Expr.AllTypesAll (Ty.AllNames holds) expressions) :
    KeepsNames holds (Expr.registerAll expressions)
      (Expr.AllTypesAll (Ty.AllNames holds)) := by
  cases expressions with
  | nil => exact .pure trivial
  | cons first rest =>
    exact .bind (Expr.keeps_register types.1) fun first firstKnown =>
      .bind (Expr.keeps_registerAll types.2) fun rest known => .pure ⟨firstKnown, known⟩

theorem Node.keeps_registerAll {nodes : List Node}
    (types : Node.AllTypesAll (Ty.AllNames holds) nodes) :
    KeepsNames holds (Node.registerAll nodes) (Node.AllTypesAll (Ty.AllNames holds)) := by
  cases nodes with
  | nil => exact .pure trivial
  | cons first rest =>
    exact .bind (Node.keeps_register types.1) fun first firstKnown =>
      .bind (Node.keeps_registerAll types.2) fun rest known => .pure ⟨firstKnown, known⟩

end

theorem Registration.keeps_file {nodes : List Node}
    (types : Node.AllTypesAll (Ty.AllNames holds) nodes) :
    KeepsNames holds (Registration.file nodes) (Node.AllTypesAll (Ty.AllNames holds)) := by
  apply Node.keeps_registerAll
  rw [Node.allTypesAll_iff] at types ⊢
  intro node member
  obtain ⟨unmarked, unmarkedMember, rfl⟩ := List.mem_map.mp member
  exact (Node.allTypes_markUsage _ _ _ _).mpr (types unmarked unmarkedMember)

theorem Registration.keeps_files {files : List (List Node)}
    (types : ∀ nodes ∈ files, Node.AllTypesAll (Ty.AllNames holds) nodes) :
    KeepsNames holds (files.mapM Registration.file) fun registered =>
      ∀ nodes ∈ registered, Node.AllTypesAll (Ty.AllNames holds) nodes :=
  .mapM fun nodes member => keeps_file (types nodes member)

/-- Registration takes the types of the table out of the trees. -/
theorem Registered.allTypes_ofFiles {files : List (List Node)}
    (types : ∀ nodes ∈ files, Node.AllTypesAll (Ty.AllNames holds) nodes) :
    (ofFiles files).table.AllTypes (Ty.AllNames holds) ∧
      ∀ nodes ∈ (ofFiles files).files, Node.AllTypesAll (Ty.AllNames holds) nodes := by
  apply Registration.keeps_files types SymbolBuilder.start
  intro index symbol found
  -- a new table has the global scope only, and a scope has no type
  have position : index.value = 0 := by
    have := (Array.getElem?_eq_some_iff.mp found).1
    simp [SymbolBuilder.start, SymbolTable.empty] at this
    omega
  simp [SymbolTable.symbol?, position, SymbolBuilder.start, SymbolTable.empty] at found
  simp [← found]

end Registration

end Cadence
