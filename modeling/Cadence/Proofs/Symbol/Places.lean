import Cadence.Proofs.Syntax.Places
import Cadence.Proofs.Syntax.Types

/-!
# The places in a symbol table

A declaration is in the table with its place in the trees, so what holds of the places in the trees
holds of those in the table as well. Registration changes no place in a tree.
-/
namespace Cadence

open Source (Span)

/-- Something holds of the place of every declaration. A scope stands for none. -/
def SymbolTable.AllPlaces (holds : Span → Prop) (table : SymbolTable) : Prop :=
  ∀ index symbol, table.symbol? index = some symbol → symbol.kind.isScope = false → holds symbol.span

section Places

variable {holds : Span → Prop}

theorem SymbolTable.allPlaces_push {table : SymbolTable} (places : table.AllPlaces holds)
    (scope : SymbolIndex) {symbol : Symbol} (new : symbol.kind.isScope = false → holds symbol.span) :
    (table.push scope symbol).AllPlaces holds := by
  intro index found present declares
  obtain ⟨origin, children, rfl | old, rfl⟩ := exists_of_symbol?_push present
  · exact new declares
  · exact places index origin old declares

theorem SymbolTable.allPlaces_setType {table : SymbolTable} (places : table.AllPlaces holds)
    (index : SymbolIndex) (type : Option Ty) : (table.setType index type).AllPlaces holds := by
  intro other symbol found declares
  simp only [setType, modify, symbol?, Array.getElem?_modify] at found
  split at found
  · obtain ⟨origin, known, rfl⟩ := Option.map_eq_some_iff.mp found
    exact places other origin known declares
  · exact places other symbol found declares

/-- A new table has the global scope only. -/
theorem SymbolTable.allPlaces_empty : SymbolTable.empty.AllPlaces holds := by
  intro index symbol found declares
  obtain ⟨inside, rfl⟩ := Array.getElem?_eq_some_iff.mp found
  have position : index.value = 0 := Nat.lt_one_iff.mp inside
  simp [empty, position, SymbolKind.scope] at declares

/-- A step of registration keeps what holds of the places in the table. -/
abbrev Registration.KeepsPlaces {α : Type} (holds : Span → Prop) :
    Registration α → (α → Prop) → Prop :=
  Registration.Keeps (SymbolTable.AllPlaces holds)

namespace Registration

theorem keepsPlaces_add {name : String} {kind : SymbolKind} {type : Option Ty} {span : Span}
    (known : holds span) : KeepsPlaces holds (add name kind type span) fun _ => True :=
  .add fun _ places => SymbolTable.allPlaces_push places _ fun _ => known

theorem keepsPlaces_within {α : Type} {span : Span} {content : Registration α} {property : α → Prop}
    (inside : KeepsPlaces holds content property) : KeepsPlaces holds (within span content) property :=
  .within (fun _ places => SymbolTable.allPlaces_push places _ nofun) inside

theorem keepsPlaces_members {members : List Member}
    (known : ∀ declared ∈ members, ∀ place ∈ declared.places, holds place) :
    KeepsPlaces holds (members.mapM member) fun registered =>
      ∀ declared ∈ registered, ∀ place ∈ declared.places, holds place := by
  apply Keeps.mapM
  intro declared inside
  have own := known declared inside
  exact .bind (keepsPlaces_add (own declared.binder.span List.mem_cons_self)) fun symbol _ =>
    .pure own

end Registration

open Registration (KeepsPlaces keepsPlaces_add keepsPlaces_within keepsPlaces_members)

mutual

theorem Node.keepsPlaces_register {node : Node} (known : ∀ place ∈ node.places, holds place) :
    KeepsPlaces holds node.register fun result => ∀ place ∈ result.places, holds place := by
  cases node with
  | procedure span head body =>
    obtain ⟨headKnown, bodyKnown⟩ := List.forall_mem_append.mp known
    obtain ⟨name, parameters, result⟩ := ProcedureHead.forall_places.mp headKnown
    cases body with
    | none => exact .bind (keepsPlaces_add name) fun symbol _ => .pure known
    | some body =>
      apply Registration.Keeps.bind (keepsPlaces_add name)
      intro symbol _
      apply keepsPlaces_within
      apply Registration.Keeps.bind (keepsPlaces_members parameters)
      intro parameters known
      exact .bind (Expr.keepsPlaces_register bodyKnown) fun body bodyKnown => .pure <|
        List.forall_mem_append.mpr ⟨ProcedureHead.forall_places.mpr ⟨name, known, result⟩, bodyKnown⟩
  | struct span declared =>
    obtain ⟨name, fields⟩ := Struct.forall_places.mp known
    apply Registration.Keeps.bind (keepsPlaces_add name)
    intro symbol _
    apply keepsPlaces_within
    exact .bind (keepsPlaces_members fields) fun fields known => .pure <|
      Struct.forall_places.mpr ⟨name, known⟩
  | binding span head initializer =>
    obtain ⟨headKnown, initial⟩ := List.forall_mem_append.mp known
    obtain ⟨name, _⟩ := BindingHead.forall_places.mp headKnown
    -- the initial value is registered in front of the name
    apply Registration.Keeps.bind (Expr.keepsPlaces_registerOption initial)
    intro initializer known
    exact .bind (keepsPlaces_add name) fun symbol _ => .pure <|
      List.forall_mem_append.mpr ⟨headKnown, known⟩
  | load span path => exact .pure known
  | expression inner => exact .bind (Expr.keepsPlaces_register known) fun inner known => .pure known
  | assignment span target operator value =>
    obtain ⟨first, second⟩ := List.forall_mem_append.mp known
    exact .bind (Expr.keepsPlaces_register first) fun target first =>
      .bind (Expr.keepsPlaces_register second) fun value second => .pure <|
        List.forall_mem_append.mpr ⟨first, second⟩

theorem Expr.keepsPlaces_register {expression : Expr}
    (known : ∀ place ∈ expression.places, holds place) :
    KeepsPlaces holds expression.register fun result => ∀ place ∈ result.places, holds place := by
  obtain ⟨info, form⟩ := expression
  obtain ⟨own, parts⟩ := List.forall_mem_cons.mp known
  exact .bind (Form.keepsPlaces_register parts) fun form parts => .pure <|
    List.forall_mem_cons.mpr ⟨own, parts⟩

theorem Form.keepsPlaces_register {form : Form} (known : ∀ place ∈ form.places, holds place) :
    KeepsPlaces holds form.register fun result => ∀ place ∈ result.places, holds place := by
  -- registration keeps the places of the parts, whatever symbols they are given
  cases form with
  | field target name =>
    obtain ⟨first, second⟩ := List.forall_mem_append.mp known
    exact .bind (Expr.keepsPlaces_register first) fun target first => .pure <|
      List.forall_mem_append.mpr ⟨first, second⟩
  | call callee arguments =>
    obtain ⟨first, second⟩ := List.forall_mem_append.mp known
    exact .bind (Expr.keepsPlaces_register first) fun callee first =>
      .bind (Expr.keepsPlaces_registerAll second) fun arguments second => .pure <|
        List.forall_mem_append.mpr ⟨first, second⟩
  | binary left operator right =>
    obtain ⟨first, second⟩ := List.forall_mem_append.mp known
    exact .bind (Expr.keepsPlaces_register first) fun left first =>
      .bind (Expr.keepsPlaces_register second) fun right second => .pure <|
        List.forall_mem_append.mpr ⟨first, second⟩
  | unary operator operand =>
    exact .bind (Expr.keepsPlaces_register known) fun operand known => .pure known
  | cast operand type =>
    obtain ⟨first, second⟩ := List.forall_mem_append.mp known
    exact .bind (Expr.keepsPlaces_register first) fun operand first => .pure <|
      List.forall_mem_append.mpr ⟨first, second⟩
  | block nodes => exact .bind (Node.keepsPlaces_registerAll known) fun nodes known => .pure known
  | conditional isNegated condition consequent alternative
  | loop isNegated condition consequent alternative =>
    obtain ⟨first, rest⟩ := List.forall_mem_append.mp known
    obtain ⟨second, third⟩ := List.forall_mem_append.mp rest
    exact .bind (Expr.keepsPlaces_register first) fun condition first =>
      .bind (Expr.keepsPlaces_register second) fun consequent second =>
        .bind (Expr.keepsPlaces_registerOption third) fun alternative third => .pure <|
          List.forall_mem_append.mpr ⟨first, List.forall_mem_append.mpr ⟨second, third⟩⟩
  | delete operand =>
    exact .bind (Expr.keepsPlaces_register known) fun operand known => .pure known
  | defer node => exact .bind (Node.keepsPlaces_register known) fun node known => .pure known
  | bool | integer | real | text | character | reference | new | uninitialized => exact .pure known

theorem Expr.keepsPlaces_registerOption {expression : Option Expr}
    (known : ∀ place ∈ Expr.placesOption expression, holds place) :
    KeepsPlaces holds (Expr.registerOption expression) fun result =>
      ∀ place ∈ Expr.placesOption result, holds place := by
  cases expression with
  | none => exact .pure known
  | some inner => exact .bind (Expr.keepsPlaces_register known) fun inner known => .pure known

theorem Expr.keepsPlaces_registerAll {expressions : List Expr}
    (known : ∀ place ∈ Expr.placesAll expressions, holds place) :
    KeepsPlaces holds (Expr.registerAll expressions) fun results =>
      ∀ place ∈ Expr.placesAll results, holds place := by
  cases expressions with
  | nil => exact .pure known
  | cons first rest =>
    obtain ⟨own, others⟩ := List.forall_mem_append.mp known
    exact .bind (Expr.keepsPlaces_register own) fun first own =>
      .bind (Expr.keepsPlaces_registerAll others) fun rest others => .pure <|
        List.forall_mem_append.mpr ⟨own, others⟩

theorem Node.keepsPlaces_registerAll {nodes : List Node}
    (known : ∀ place ∈ Node.placesAll nodes, holds place) :
    KeepsPlaces holds (Node.registerAll nodes) fun results =>
      ∀ place ∈ Node.placesAll results, holds place := by
  cases nodes with
  | nil => exact .pure known
  | cons first rest =>
    obtain ⟨own, others⟩ := List.forall_mem_append.mp known
    exact .bind (Node.keepsPlaces_register own) fun first own =>
      .bind (Node.keepsPlaces_registerAll others) fun rest others => .pure <|
        List.forall_mem_append.mpr ⟨own, others⟩

end

theorem Registration.keepsPlaces_file {nodes : List Node}
    (known : ∀ place ∈ Node.placesAll nodes, holds place) :
    KeepsPlaces holds (file nodes) fun results => ∀ place ∈ Node.placesAll results, holds place := by
  apply Node.keepsPlaces_registerAll
  have same : Node.placesAll (nodes.map (Node.markUsage false false)) = Node.placesAll nodes := by
    rw [Node.placesAll_eq, Node.placesAll_eq, List.flatMap_map]
    exact congrArg (nodes.flatMap ·) (funext (Node.places_markUsage false false))
  rwa [same]

/-- What holds of the places in the trees holds of those in the table as well. -/
theorem Registered.allPlaces_ofFiles {files : List (List Node)}
    (known : ∀ nodes ∈ files, ∀ place ∈ Node.placesAll nodes, holds place) :
    (ofFiles files).table.AllPlaces holds ∧
      ∀ nodes ∈ (ofFiles files).files, ∀ place ∈ Node.placesAll nodes, holds place := by
  have keeps : KeepsPlaces holds (files.mapM Registration.file) fun registered =>
      ∀ nodes ∈ registered, ∀ place ∈ Node.placesAll nodes, holds place :=
    .mapM fun nodes member => Registration.keepsPlaces_file (known nodes member)
  exact keeps .start SymbolTable.allPlaces_empty

end Places

end Cadence
