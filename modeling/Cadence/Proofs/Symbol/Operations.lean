import Cadence.Proofs.Symbol.Registration
import Mathlib.Data.List.Induction

/-!
# Sequences of operations

A symbol table is built by any sequence of three operations: to add a symbol, to enter a new scope,
and to leave the innermost one. Operations between a scope that is entered and the place where it
is left again are balanced. A scope is open behind some operations if those that follow its entry
can be taken apart into balanced stretches and further entries, and the innermost open scope is the
one with nothing but a balanced stretch behind it.
-/
namespace Cadence

open Source (Span)

namespace SymbolBuilder

/-- What can be asked of a builder. -/
inductive Operation where
  | add (name : String) (kind : SymbolKind) (type : Option Ty) (span : Span)
  | enter (span : Span)
  | leave

namespace Operation

/-- Whether the operation puts a symbol into the table. -/
def adds : Operation → Bool
  | add _ _ _ _ | enter _ => true
  | leave => false

def enters : Operation → Bool
  | enter _ => true
  | add _ _ _ _ | leave => false

def leaves : Operation → Bool
  | leave => true
  | add _ _ _ _ | enter _ => false

/-- The kind of a symbol that is added says nothing about its place. -/
def NamesNoLocality : Operation → Prop
  | add _ kind _ _ => kind.isGlobal = false ∧ kind.isLocal = false
  | enter _ | leave => True

def perform (builder : SymbolBuilder) : Operation → Except Fault SymbolBuilder
  | add name kind type span => .ok (builder.add name kind type span)
  | enter span => .ok (builder.enter span)
  | leave => builder.leave?

end Operation

/-- Perform some operations one after the other, starting with nothing. -/
def build (operations : List Operation) : Except Fault SymbolBuilder :=
  operations.foldlM Operation.perform start

/-- Every scope that is entered is left, and no other one. -/
inductive Balanced : List Operation → Prop
  | nil : Balanced []
  | add {name : String} {kind : SymbolKind} {type : Option Ty} {span : Span}
      {rest : List Operation} : Balanced rest → Balanced (.add name kind type span :: rest)
  | enclosed {span : Span} {inside rest : List Operation} : Balanced inside → Balanced rest →
      Balanced (.enter span :: inside ++ .leave :: rest)

/-- The scopes that are open behind some operations apart from the global one, innermost first. Each
has the index that comes next when it is entered. -/
inductive Opens : List Operation → List SymbolIndex → Prop
  | none {operations : List Operation} : Balanced operations → Opens operations []
  | more {before inside : List Operation} {span : Span} {outer : List SymbolIndex} :
      Opens before outer → Balanced inside →
      Opens (before ++ .enter span :: inside) (⟨1 + before.countP Operation.adds⟩ :: outer)

/-- The scope that a symbol which is added behind some operations goes into. -/
inductive IsInnermost : List Operation → SymbolIndex → Prop
  | root {operations : List Operation} : Balanced operations →
      IsInnermost operations SymbolTable.root
  | entered {before inside : List Operation} {span : Span} : Balanced inside →
      IsInnermost (before ++ .enter span :: inside) ⟨1 + before.countP Operation.adds⟩

theorem Balanced.append {left right : List Operation} (first : Balanced left)
    (second : Balanced right) : Balanced (left ++ right) := by
  induction first with
  | nil => exact second
  | add _ ih => exact .add ih
  | enclosed inside _ _ ih =>
    rw [List.append_assoc, List.cons_append]
    exact .enclosed inside ih

/-- As many scopes are left as are entered. -/
theorem Balanced.countP_eq {operations : List Operation} (balanced : Balanced operations) :
    operations.countP Operation.enters = operations.countP Operation.leaves := by
  induction balanced with
  | nil => rfl
  | add _ ih => simpa [Operation.enters, Operation.leaves] using ih
  | enclosed _ _ ihInside ihRest =>
    simp only [List.countP_append, List.countP_cons, Operation.enters, Operation.leaves]
    simp only [Bool.false_eq_true, ↓reduceIte]
    omega

namespace Opens

variable {operations : List Operation} {scopes : List SymbolIndex}

theorem countP_eq (opens : Opens operations scopes) :
    operations.countP Operation.enters =
      operations.countP Operation.leaves + scopes.length := by
  induction opens with
  | none balanced => exact balanced.countP_eq
  | more _ balanced ih =>
    have same := balanced.countP_eq
    simp only [List.countP_append, List.countP_cons, Operation.enters, Operation.leaves,
      List.length_cons]
    simp only [Bool.false_eq_true, ↓reduceIte]
    omega

theorem append_balanced (opens : Opens operations scopes) {further : List Operation}
    (balanced : Balanced further) : Opens (operations ++ further) scopes := by
  cases opens with
  | none before => exact .none (before.append balanced)
  | more outer inside =>
    rw [List.append_assoc, List.cons_append]
    exact .more outer (inside.append balanced)

theorem enter (opens : Opens operations scopes) (span : Span) :
    Opens (operations ++ [.enter span]) (⟨1 + operations.countP Operation.adds⟩ :: scopes) :=
  .more opens .nil

/-- To leave the innermost scope closes the stretch that its entry began. -/
theorem leave {scope : SymbolIndex} (opens : Opens operations (scope :: scopes)) :
    Opens (operations ++ [.leave]) scopes := by
  cases opens with
  | more outer inside =>
    rw [List.append_assoc]
    exact outer.append_balanced (.enclosed inside .nil)

theorem isInnermost (opens : Opens operations scopes) :
    IsInnermost operations (scopes.headD SymbolTable.root) := by
  cases opens with
  | none balanced => exact .root balanced
  | more _ balanced => exact .entered balanced

end Opens

section Steps

variable {builder after : SymbolBuilder} {operation : Operation}

/-- Everything that an operation can do. -/
theorem perform_cases (performed : operation.perform builder = .ok after) :
    (∃ name kind type span, operation = .add name kind type span ∧
      after = builder.add name kind type span) ∨
    (∃ span, operation = .enter span ∧ after = builder.enter span) ∨
    ∃ scope outer, operation = .leave ∧ builder.inner = scope :: outer ∧
      after = { builder with inner := outer } := by
  cases operation with
  | add name kind type span =>
    exact .inl ⟨name, kind, type, span, rfl, (Except.ok.inj performed).symm⟩
  | enter span => exact .inr (.inl ⟨span, rfl, (Except.ok.inj performed).symm⟩)
  | leave =>
    rw [Operation.perform, leave?, isInGlobalScope] at performed
    cases known : builder.inner with
    | nil => simp [known] at performed
    | cons scope outer =>
      refine .inr (.inr ⟨scope, outer, rfl, rfl, ?_⟩)
      simpa [known, SymbolBuilder.leave] using performed.symm

theorem build_append (before behind : List Operation) :
    build (before ++ behind) =
      (do behind.foldlM Operation.perform (← build before)) :=
  List.foldlM_append

theorem build_concat (operations : List Operation) (operation : Operation) :
    build (operations ++ [operation]) = (do operation.perform (← build operations)) := by
  simp [build, List.foldlM_append]

/-- What holds at the start and is kept by every operation holds behind any sequence of them. -/
theorem build_induction {motive : List Operation → SymbolBuilder → Prop}
    {operations : List Operation} {builder : SymbolBuilder}
    (built : build operations = .ok builder) (initial : motive [] start)
    (step : ∀ operations operation builder after, build operations = .ok builder →
      motive operations builder → operation.perform builder = .ok after →
      motive (operations ++ [operation]) after) :
    motive operations builder := by
  induction operations using List.reverseRecOn generalizing builder with
  | nil =>
    obtain rfl := Except.ok.inj built
    exact initial
  | append_singleton operations operation ih =>
    rw [build_concat] at built
    cases before : build operations with
    | error fault => simp [before, bind, Except.bind] at built
    | ok middle =>
      rw [before] at built
      exact step operations operation middle builder before (ih before) built

/-- The scopes that a builder has open are those that are open behind the operations, and every
symbol that was added is in the table. -/
theorem opens_build {operations : List Operation} {builder : SymbolBuilder}
    (built : build operations = .ok builder) :
    Opens operations builder.inner ∧
      builder.table.size = 1 + operations.countP Operation.adds := by
  apply build_induction built
  case initial => exact ⟨.none .nil, rfl⟩
  case step =>
    rintro operations operation builder after _ ⟨opens, size⟩ performed
    rcases perform_cases performed with
      ⟨name, kind, type, span, rfl, rfl⟩ | ⟨span, rfl, rfl⟩ | ⟨scope, outer, rfl, known, rfl⟩
    case inl =>
      refine ⟨opens.append_balanced (.add .nil), ?_⟩
      rw [size_add, size, List.countP_append]
      rfl
    case inr.inl =>
      have entered := opens.enter span
      rw [← size] at entered
      refine ⟨entered, ?_⟩
      rw [show (builder.enter span).table.size = builder.table.size + 1 from builder.size_add _ _ _ _,
        size, List.countP_append]
      rfl
    case inr.inr =>
      -- no symbol is added
      rw [known] at opens
      exact ⟨opens.leave, by simpa [Operation.adds] using size⟩

/-- Operations can be performed unless more scopes are left than were entered before. -/
theorem exists_build_iff (operations : List Operation) :
    (∃ builder, build operations = .ok builder) ↔
      ∀ before, before <+: operations →
        before.countP Operation.leaves ≤ before.countP Operation.enters := by
  constructor
  · -- every stretch from the start could be performed as well, and each scope left was open then
    rintro ⟨builder, built⟩ before ⟨behind, rfl⟩
    rw [build_append] at built
    cases early : build before with
    | error fault => simp [early, bind, Except.bind] at built
    | ok middle =>
      have counts := (opens_build early).1.countP_eq
      omega
  · -- the last operation fails only if it leaves a scope while none is open
    intro fewer
    induction operations using List.reverseRecOn with
    | nil => exact ⟨start, rfl⟩
    | append_singleton operations operation ih =>
      obtain ⟨builder, built⟩ := ih fun before initial => fewer before (initial.trans (List.prefix_append _ _))
      have whole := fewer _ (List.prefix_refl _)
      have counts := (opens_build built).1.countP_eq
      rw [build_concat, built]
      cases operation with
      | add name kind type span => exact ⟨_, rfl⟩
      | enter span => exact ⟨_, rfl⟩
      | leave =>
        cases known : builder.inner with
        | nil => simp [known, Operation.leaves, Operation.enters] at whole counts; omega
        | cons scope outer =>
          exact ⟨builder.leave, by simp [bind, Except.bind, Operation.perform, leave?, isInGlobalScope, known]⟩

/-- The only operation that fails is to leave the global scope. -/
theorem eq_globalScopeClosed_of_build {operations : List Operation} {fault : Fault}
    (failed : build operations = .error fault) : fault = .globalScopeClosed := by
  induction operations using List.reverseRecOn with
  | nil => cases failed
  | append_singleton operations operation ih =>
    rw [build_concat] at failed
    cases before : build operations with
    | error early =>
      rw [before] at failed
      exact ih (before.trans failed)
    | ok builder =>
      rw [before] at failed
      cases operation with
      | add | enter => cases failed
      | leave =>
        simp only [bind, Except.bind, Operation.perform, leave?] at failed
        split at failed <;> cases failed
        rfl

/-- No scope but the global one is open if as many were left as were entered. -/
theorem isInGlobalScope_build {operations : List Operation} {builder : SymbolBuilder}
    (built : build operations = .ok builder) :
    builder.isInGlobalScope =
      decide (operations.countP Operation.enters = operations.countP Operation.leaves) := by
  have counts := (opens_build built).1.countP_eq
  rw [isInGlobalScope, Bool.eq_iff_iff, List.isEmpty_iff, decide_eq_true_iff, counts,
    ← List.length_eq_zero_iff]
  omega

end Steps

end SymbolBuilder

end Cadence
