import Cadence.Proofs.Parse.Stated
import Cadence.Proofs.Resolution.Sameness
import Cadence.Proofs.Resolution.Settled
import Cadence.Proofs.Symbol.Unit

/-!
# What resolution finds out and what it leaves as it is

Resolution finds out which symbols names denote and of which types expressions and declarations are. All
else in the trees and in the table stays as it was, and so do the types that are written down, apart from
the symbols that are recorded for the names in them.

The frame of a tree is what must not change about it. One walk over a tree keeps the frame, as long as its
expressions are of the types that they say, which they are again behind the walk. So any number of walks
keeps it. For the table, the types that were written down are those of the plan of the unit.

That the frame stays also says which names the rule of scoping is about: those of the trees that were
registered, each at its place.
-/
namespace Cadence

open Resolving
open Source (File)

/-- What resolution leaves of the type of an expression: only the one that its form says by itself is
kept, apart from what is recorded for names. -/
def Form.keptType? (type : Option Ty) : Form → Option Ty
  | .bool _ | .integer _ _ | .real _ | .text _ | .character _ | .cast _ _ | .new _ | .uninitialized =>
    type.map Ty.bare
  | .reference _ _ | .field _ _ | .call _ _ | .binary _ _ _ | .unary _ _ | .block _
  | .conditional _ _ _ _ | .loop _ _ _ _ | .delete _ | .defer _ => none

mutual

/-- The node without what resolution finds out: the symbols of references and of names in types, and the
types of expressions that do not say them. -/
def Node.frame : Node → Node
  | .procedure span head body => .procedure span (head.map id Ty.bare) (Expr.frameOption body)
  | .struct span declared => .struct span (declared.map id Ty.bare)
  | .binding span head initializer => .binding span (head.map id Ty.bare) (Expr.frameOption initializer)
  | .load span path => .load span path
  | .expression inner => .expression inner.frame
  | .assignment span target operator value => .assignment span target.frame operator value.frame

def Expr.frame : Expr → Expr
  | .mk info form => .mk { info with type := form.keptType? info.type } form.frame

def Form.frame : Form → Form
  | .bool value => .bool value
  | .integer value radix => .integer value radix
  | .real literal => .real literal
  | .text content => .text content
  | .character character => .character character
  | .reference binder _ => .reference binder none
  | .field target field => .field target.frame field
  | .call callee arguments => .call callee.frame (Expr.frameAll arguments)
  | .binary left operator right => .binary left.frame operator right.frame
  | .unary operator operand => .unary operator operand.frame
  | .cast operand type => .cast operand.frame (type.map Ty.bare)
  | .block nodes => .block (Node.frameAll nodes)
  | .conditional isNegated condition consequent alternative =>
    .conditional isNegated condition.frame consequent.frame (Expr.frameOption alternative)
  | .loop isNegated condition body alternative =>
    .loop isNegated condition.frame body.frame (Expr.frameOption alternative)
  | .new type => .new (type.map Ty.bare)
  | .delete operand => .delete operand.frame
  | .defer node => .defer node.frame
  | .uninitialized => .uninitialized

def Expr.frameOption : Option Expr → Option Expr
  | none => none
  | some inner => some inner.frame

def Expr.frameAll : List Expr → List Expr
  | [] => []
  | first :: rest => first.frame :: Expr.frameAll rest

def Node.frameAll : List Node → List Node
  | [] => []
  | first :: rest => first.frame :: Node.frameAll rest

end

/-- If the expressions in a part of a tree are of the types that they say, so are those in what became of
it, and something else is kept. -/
def KeepsFrame (before now : List Expr) (same : Prop) : Prop :=
  SayTypes before → SayTypes now ∧ same

namespace KeepsFrame

variable {before now behind behind' : List Expr} {first second : Prop}

theorem none (same : first) : KeepsFrame [] [] first := fun known => ⟨known, same⟩

theorem imp (keeps : KeepsFrame before now first) (implies : first → second) :
    KeepsFrame before now second :=
  fun known => (keeps known).imp_right implies

theorem append (left : KeepsFrame before now first) (right : KeepsFrame behind behind' second) :
    KeepsFrame (before ++ behind) (now ++ behind') (first ∧ second) := by
  intro whole
  obtain ⟨known, further⟩ := whole.of_append
  obtain ⟨now, same⟩ := left known
  obtain ⟨now', same'⟩ := right further
  exact ⟨now.append now', same, same'⟩

/-- An expression whose form does not say its type, and what became of it. -/
theorem whole {info : ExprInfo} {type : Option Ty} {form form' : Form}
    (parts : KeepsFrame form.expressions form'.expressions first) (unsaid : form'.statedType? = .none)
    (implies : first → (Expr.mk { info with type } form').frame = (Expr.mk info form).frame) :
    KeepsFrame (Expr.mk info form).expressions (Expr.mk { info with type } form').expressions
      ((Expr.mk { info with type } form').frame = (Expr.mk info form).frame) := by
  intro known
  obtain ⟨inner, _⟩ := SayTypes.of_append known
  obtain ⟨now, same⟩ := parts inner
  refine ⟨now.snoc ?_, implies same⟩
  intro type member
  cases unsaid.symm.trans member

end KeepsFrame

namespace Resolving

variable {walk : Walk}

/-- A traversal relates each item to what becomes of it if each step does, wherever it starts. -/
theorem Ends.mapM {α β : Type} {step : α → Resolving β} {relates : α → β → Prop} {items : List α}
    (each : ∀ item ∈ items, ∀ walk : Walk, (step item).Ends walk fun result _ => relates item result)
    {walk : Walk} : (items.mapM step).Ends walk fun results _ => List.Forall₂ relates items results := by
  induction items generalizing walk with
  | nil => exact .pure .nil
  | cons first rest ih =>
    obtain ⟨own, others⟩ := List.forall_mem_cons.mp each
    rw [List.mapM_cons]
    refine (own walk).bind fun first' _ related => ?_
    exact (ih others).bind fun rest' _ relateds => .pure (.cons related relateds)

theorem map_eq_of_forall₂ {α β γ : Type} {before : α → γ} {now : β → γ} {items : List α} {results : List β}
    (related : List.Forall₂ (fun item result => now result = before item) items results) :
    results.map now = items.map before := by
  induction related with
  | nil => rfl
  | cons same _ ih => rw [List.map_cons, List.map_cons, same, ih]

mutual

/-- Only what is recorded for the names in a type is found out. -/
theorem Ty.bare_resolve {walk : Walk} (type : Ty) :
    type.resolve.Ends walk fun result _ => result.bare = type.bare := by
  cases type with
  | builtin | struct => exact .pure rfl
  | pointer target => exact (Ty.bare_resolve target).bind fun _ _ same => .pure (congrArg Ty.pointer same)
  | procedure parameters isVariadic result =>
    refine (Ty.bare_resolveParameters parameters).bind fun _ _ first => ?_
    refine (Ty.bare_resolve result).bind fun _ _ second => .pure ?_
    exact congrArg₂ (Ty.procedure · isVariadic ·) first second
  | named path known => exact .behind fun _ _ => .pure rfl

theorem Ty.bare_resolveParameters {walk : Walk} (parameters : List (Option String × Ty)) :
    (Ty.resolveParameters parameters).Ends walk fun result _ =>
      Ty.mapParameterNames (fun _ _ => none) result = Ty.mapParameterNames (fun _ _ => none) parameters := by
  match parameters with
  | [] => exact .pure rfl
  | (name, type) :: rest =>
    refine (Ty.bare_resolve type).bind fun _ _ first => ?_
    refine (Ty.bare_resolveParameters rest).bind fun _ _ second => .pure ?_
    exact congrArg₂ (fun type rest => (name, type) :: rest) first second

end

theorem annotated_bare (type : Annotation) :
    (annotated type).Ends walk fun result _ => result.map Ty.bare = type.map Ty.bare :=
  (Ty.bare_resolve type.value).bind fun _ _ same => .pure (congrArg (Spanned.mk · type.span) same)

theorem annotatedOption_bare (type : Option Annotation) :
    (type.mapM annotated).Ends walk fun result _ =>
      result.map (Spanned.map Ty.bare) = type.map (Spanned.map Ty.bare) := by
  cases type with
  | none => exact .pure rfl
  | some type => exact Ends.map ((annotated_bare type).mono fun _ _ same => congrArg some same)

theorem memberType_bare (member : Member) :
    (memberType member).Ends walk fun result _ => result.map id Ty.bare = member.map id Ty.bare := by
  refine (annotated_bare member.type).bind fun type _ same => .pure ?_
  rw [Member.map, Member.map, same]

theorem memberTypes_bare (members : List Member) :
    (members.mapM memberType).Ends walk fun result _ =>
      result.map (Member.map id Ty.bare) = members.map (Member.map id Ty.bare) :=
  (Ends.mapM fun member _ _ => memberType_bare member).mono fun _ _ => map_eq_of_forall₂

theorem procedureHead_bare (head : ProcedureHead) :
    (procedureHead head).Ends walk fun result _ => result.2.map id Ty.bare = head.map id Ty.bare := by
  refine .behind fun owner _ => ?_
  refine (memberTypes_bare _).bind fun parameters _ first => ?_
  refine (annotatedOption_bare head.result).bind fun result _ second => ?_
  refine .behind fun _ _ => .pure ?_
  simp only [ProcedureHead.map, first, second]

mutual

/-- A walk over a tree keeps its frame. -/
theorem Node.frame_resolve {walk : Walk} (node : Node) :
    node.resolve.Ends walk fun result _ =>
      KeepsFrame node.expressions result.expressions (result.frame = node.frame) := by
  -- `behind` skips the steps that only record something, since a frame says nothing about the walk
  cases node with
  | procedure span head body =>
    refine (procedureHead_bare head).bind fun found middle heads => ?_
    obtain ⟨owner, head'⟩ := found
    cases body with
    | none => exact .pure (.none (by rw [Node.frame, Node.frame, heads]))
    | some body =>
      have inside (start : Walk) : Ends (do head'.parameters.forM meetMember; return some (← body.resolve))
          start fun result _ => ∃ body', result = some body' ∧
            KeepsFrame body.expressions body'.expressions (body'.frame = body.frame) := by
        refine .behind fun _ _ => (Expr.frame_resolve body).bind fun body' _ keeps => ?_
        exact .pure ⟨body', rfl, keeps⟩
      refine (Ends.withinBody owner inside).bind ?_
      rintro _ after ⟨body', rfl, keeps⟩
      refine .pure (keeps.imp fun same => ?_)
      rw [Node.frame, Node.frame, Expr.frameOption, Expr.frameOption, heads, same]
  | struct span declared =>
    refine .behind fun _ _ => ?_
    refine (memberTypes_bare _).bind fun fields _ same => ?_
    refine .behind fun _ _ => .behind fun _ _ => .pure (.none ?_)
    simp only [Node.frame, Struct.map, same]
  | binding span head initializer =>
    refine (annotatedOption_bare head.type).bind fun type _ heads => ?_
    refine (Expr.frame_resolveOption initializer).bind fun initializer' _ keeps => ?_
    refine .behind fun _ _ => .behind fun _ _ => .pure (keeps.imp fun same => ?_)
    simp only [Node.frame, BindingHead.map, heads, same]
  | load span path => exact .pure (.none rfl)
  | expression inner =>
    refine (Expr.frame_resolve inner).bind fun inner' _ keeps => ?_
    exact .pure (keeps.imp fun same => congrArg Node.expression same)
  | assignment span target operator value =>
    refine (Expr.frame_resolve target).bind fun target' _ first => ?_
    refine (Expr.frame_resolve value).bind fun value' _ second => .pure ?_
    refine (first.append second).imp ?_
    rintro ⟨left, right⟩
    rw [Node.frame, Node.frame, left, right]

theorem Expr.frame_resolve {walk : Walk} (expression : Expr) :
    expression.resolve.Ends walk fun result _ =>
      KeepsFrame expression.expressions result.expressions (result.frame = expression.frame) := by
  obtain ⟨info, form⟩ := expression
  exact (Form.frame_resolve form info).bind fun result _ keeps => .pure keeps

theorem Form.frame_resolve {walk : Walk} (form : Form) (info : ExprInfo) :
    (form.resolve info.type).Ends walk fun result _ =>
      let before := Expr.mk info form
      let now := Expr.mk { info with type := result.2 } result.1
      KeepsFrame before.expressions now.expressions (now.frame = before.frame) := by
  -- a type is kept in the frame of those forms only that state it; all others are found out anew
  cases form with
  | reference binder symbol =>
    exact .behind fun found _ => .behind fun type _ => .pure (.whole (.none trivial) rfl fun _ => rfl)
  | field target name =>
    refine (Expr.frame_resolve target).bind fun target' _ keeps => ?_
    refine .behind fun type _ => .pure (.whole keeps rfl fun same => ?_)
    simp only [Expr.frame, Form.frame, Form.keptType?, same]
  | call callee arguments =>
    refine (Expr.frame_resolve callee).bind fun callee' _ first => ?_
    refine (Expr.frame_resolveAll arguments).bind fun arguments' _ second => .pure ?_
    refine .whole (first.append second) rfl ?_
    rintro ⟨left, right⟩
    simp only [Expr.frame, Form.frame, Form.keptType?, left, right]
  | binary left operator right =>
    refine (Expr.frame_resolve left).bind fun left' _ first => ?_
    refine (Expr.frame_resolve right).bind fun right' _ second => .pure ?_
    refine .whole (first.append second) rfl ?_
    rintro ⟨lefts, rights⟩
    simp only [Expr.frame, Form.frame, Form.keptType?, lefts, rights]
  | unary operator operand =>
    refine (Expr.frame_resolve operand).bind fun operand' _ keeps => .pure ?_
    refine .whole keeps rfl fun same => ?_
    simp only [Expr.frame, Form.frame, Form.keptType?, same]
  | cast operand type =>
    refine (Expr.frame_resolve operand).bind fun operand' _ keeps => ?_
    refine (annotated_bare type).bind fun type' _ stated => .pure fun known => ?_
    -- the type of the cast was the one that is written in it, and is so again
    obtain ⟨inner, own⟩ := SayTypes.of_append known
    obtain ⟨now, same⟩ := keeps inner
    have was : info.type.map Ty.bare = some type.value.bare := own _ (List.mem_singleton_self _) _ rfl
    have values : type'.value.bare = type.value.bare := congrArg Spanned.value stated
    refine ⟨now.snoc ?_, ?_⟩
    · rintro _ ⟨⟩
      rfl
    · simp only [Expr.frame, Form.frame, Form.keptType?, same, stated, was, Option.map_some, values]
  | block nodes =>
    refine (Node.frame_resolveAll nodes).bind fun nodes' _ keeps => .pure ?_
    refine .whole keeps rfl fun same => ?_
    simp only [Expr.frame, Form.frame, Form.keptType?, same]
  | conditional isNegated condition consequent alternative =>
    refine (Expr.frame_resolve condition).bind fun condition' _ first => ?_
    refine (Expr.frame_resolve consequent).bind fun consequent' _ second => ?_
    refine (Expr.frame_resolveOption alternative).bind fun alternative' _ third => .pure ?_
    refine .whole (first.append (second.append third)) rfl ?_
    rintro ⟨left, middle, right⟩
    simp only [Expr.frame, Form.frame, Form.keptType?, left, middle, right]
  | loop isNegated condition body alternative =>
    refine (Expr.frame_resolve condition).bind fun condition' _ first => ?_
    refine (Expr.frame_resolve body).bind fun body' _ second => ?_
    refine (Expr.frame_resolveOption alternative).bind fun alternative' _ third => .pure ?_
    refine .whole (first.append (second.append third)) rfl ?_
    rintro ⟨left, middle, right⟩
    simp only [Expr.frame, Form.frame, Form.keptType?, left, middle, right]
  | new type =>
    refine (annotated_bare type).bind fun type' _ stated => .pure fun known => ?_
    -- likewise for the pointer to the type that is asked for
    have was : info.type.map Ty.bare = some (.pointer type.value.bare) :=
      known _ (List.mem_singleton_self _) _ rfl
    have values : type'.value.bare = type.value.bare := congrArg Spanned.value stated
    refine ⟨List.forall_mem_singleton.mpr ?_, ?_⟩
    · rintro _ ⟨⟩
      rfl
    · have now : (Ty.pointer type'.value).bare = .pointer type.value.bare := congrArg Ty.pointer values
      simp only [Expr.frame, Form.frame, Form.keptType?, stated, was, Option.map_some, now]
  | delete operand =>
    refine (Expr.frame_resolve operand).bind fun operand' _ keeps => .pure ?_
    refine .whole keeps rfl fun same => ?_
    simp only [Expr.frame, Form.frame, Form.keptType?, same]
  | defer node =>
    refine (Node.frame_resolve node).bind fun node' _ keeps => .pure ?_
    refine .whole keeps rfl fun same => ?_
    simp only [Expr.frame, Form.frame, Form.keptType?, same]
  | bool | integer | real | text | character | uninitialized => exact .pure fun known => ⟨known, rfl⟩

theorem Expr.frame_resolveOption {walk : Walk} (expression : Option Expr) :
    (Expr.resolveOption expression).Ends walk fun result _ =>
      KeepsFrame (Expr.expressionsOption expression) (Expr.expressionsOption result)
        (Expr.frameOption result = Expr.frameOption expression) := by
  cases expression with
  | none => exact .pure (.none rfl)
  | some inner =>
    exact (Expr.frame_resolve inner).bind fun inner' _ keeps => .pure (keeps.imp (congrArg some))

theorem Expr.frame_resolveAll {walk : Walk} (expressions : List Expr) :
    (Expr.resolveAll expressions).Ends walk fun result _ =>
      KeepsFrame (Expr.expressionsAll expressions) (Expr.expressionsAll result)
        (Expr.frameAll result = Expr.frameAll expressions) := by
  cases expressions with
  | nil => exact .pure (.none rfl)
  | cons first rest =>
    refine (Expr.frame_resolve first).bind fun first' _ own => ?_
    refine (Expr.frame_resolveAll rest).bind fun rest' _ others => .pure ?_
    exact (own.append others).imp fun sames => congrArg₂ List.cons sames.1 sames.2

theorem Node.frame_resolveAll {walk : Walk} (nodes : List Node) :
    (Node.resolveAll nodes).Ends walk fun result _ =>
      KeepsFrame (Node.expressionsAll nodes) (Node.expressionsAll result)
        (Node.frameAll result = Node.frameAll nodes) := by
  cases nodes with
  | nil => exact .pure (.none rfl)
  | cons first rest =>
    refine (Node.frame_resolve first).bind fun first' _ own => ?_
    refine (Node.frame_resolveAll rest).bind fun rest' _ others => .pure ?_
    exact (own.append others).imp fun sames => congrArg₂ List.cons sames.1 sames.2

end

/-- What a walk over a file leaves has the same frame, and its expressions are again of the types that
they say. -/
def HasFrame (nodes result : List Node) : Prop :=
  SayTypes (Node.expressionsAll result) ∧ Node.frameAll result = Node.frameAll nodes

theorem walk_frame (position : Nat) {nodes : List Node} (known : SayTypes (Node.expressionsAll nodes)) :
    (Resolving.walk position nodes).Ends walk fun result _ => HasFrame nodes result.1 := by
  refine Ends.bind_modify ((Node.frame_resolveAll nodes).bind fun nodes' after keeps => ?_)
  exact .bind_get (.pure (keeps known))

/-- However many walks are made over a file, its frame stays. -/
theorem settle_frame (position : Nat) {nodes : List Node} (deferred : Nat)
    (known : SayTypes (Node.expressionsAll nodes)) :
    (settle position nodes deferred).Ends walk fun result _ => HasFrame nodes result := by
  induction deferred using Nat.strongRecOn generalizing nodes walk with
  | ind deferred ih =>
    rw [settle]
    split
    next => exact .pure ⟨known, rfl⟩
    next =>
      refine (walk_frame position known).bind ?_
      rintro ⟨nodes', fewer⟩ after ⟨again, same⟩
      dsimp only
      split
      next less =>
        refine (ih _ less again).mono ?_
        rintro result _ ⟨last, frame⟩
        exact ⟨last, frame.trans same⟩
      next => exact .pure ⟨again, same⟩

theorem file_frame {nodes : List Node} (known : SayTypes (Node.expressionsAll nodes)) :
    (file nodes).Ends walk fun result _ => HasFrame nodes result.1 := by
  apply Ends.bind_get
  refine (walk_frame _ known).bind ?_
  rintro ⟨nodes', deferred⟩ middle ⟨again, first⟩
  refine (settle_frame _ deferred again).bind ?_
  rintro settled after ⟨last, second⟩
  exact .bind_get (.pure ⟨last, second.trans first⟩)

end Resolving

/-- The files of a unit keep their frames. -/
theorem Resolved.hasFrame_files {files : List (List Node)} (formed : WellFormedTrees files)
    {resolved : Resolved} (run : ofRegistered (Registered.ofFiles files) = .ok resolved) :
    List.Forall₂ HasFrame (Registered.ofFiles files).files resolved.files := by
  have whole : Ends (do
        let files ← (Registered.ofFiles files).files.mapM Resolving.file
        Resolving.finish
        return files) (.start (Registered.ofFiles files).table) fun results _ =>
      List.Forall₂ (fun nodes result => HasFrame nodes result.1) (Registered.ofFiles files).files results := by
    refine (Ends.mapM fun nodes member _ => file_frame ?_).bind fun results _ related =>
      .behind fun _ _ => .pure related
    obtain ⟨tree, parsed, builder, rfl⟩ := Registration.exists_file member
    exact Registration.sayTypes_file (formed tree parsed) builder
  obtain ⟨⟨results, after⟩, ran, rfl⟩ := Except.bind_eq_ok run
  exact List.forall₂_map_right_iff.mpr (whole _ _ ran)

/-- The trees of a unit are those that were registered, apart from what resolution finds out. -/
theorem Resolved.map_frameAll_files {files : List (List Node)} (formed : WellFormedTrees files)
    {resolved : Resolved} (run : ofRegistered (Registered.ofFiles files) = .ok resolved) :
    resolved.files.map Node.frameAll = (Registered.ofFiles files).files.map Node.frameAll :=
  map_eq_of_forall₂ ((hasFrame_files formed run).imp fun _ _ frame => frame.2)

/-- In every unit, the rule of scoping decides which symbols are recorded for the names in the trees that
were registered. -/
theorem resolution_follows_scoping (files : List File) :
    let registered := Registered.ofFiles (treesOf files)
    ∃ resolved, Resolved.ofRegistered registered = .ok resolved ∧
      resolved.files.map Node.frameAll = registered.files.map Node.frameAll ∧
      ∀ sighting ∈ unitSightings resolved.files, sighting.IsRight := by
  intro registered
  obtain ⟨resolved, run, completes⟩ := Resolved.exists_completes_ofFiles (isUnbound_treesOf files)
  have framed := Resolved.map_frameAll_files (wellFormed_treesOf files) run
  exact ⟨resolved, run, framed, completes.right⟩

/-- Only bindings can be declared without a type. -/
theorem Plan.isSome_type_of_declared {plan : Plan} :
    ∀ item ∈ plan.declared, item.heading.kind ≠ .binding → item.type.isSome := by
  have members (members : List Member) :
      ∀ item ∈ Member.declared members, item.heading.kind ≠ .binding → item.type.isSome :=
    List.forall_mem_map.mpr fun _ _ _ => rfl
  induction plan with
  | value | stated | reference => nofun
  | field span target name ih => exact ih
  | expression span inner ih => exact ih
  | external head => exact List.forall_mem_singleton.mpr fun _ => rfl
  | procedure head body ih =>
    exact List.forall_mem_cons.mpr ⟨fun _ => rfl, List.forall_mem_append.mpr ⟨members _, ih⟩⟩
  | struct declared => exact List.forall_mem_cons.mpr ⟨fun _ => rfl, members _⟩
  | binding head initial ih =>
    exact List.forall_mem_append.mpr ⟨ih, List.forall_mem_singleton.mpr fun other => absurd rfl other⟩
  | combine rule first second ihFirst ihSecond => exact List.forall_mem_append.mpr ⟨ihFirst, ihSecond⟩

/-- However often a file is walked over, resolution changes nothing in a unit but the types of symbols, the
types of expressions that do not say them, and the symbols of references and of names in types. All else
in the table and in the trees stays as it was. A declaration that has a type when it is registered, as each
one but a binding does, keeps that type, apart from the symbols of names in it, and so does an expression
that says its type. -/
theorem resolution_keeps_frame (files : List File) :
    let registered := Registered.ofFiles (treesOf files)
    ∃ resolved, Resolved.ofRegistered registered = .ok resolved ∧
      resolved.table.SameShape registered.table ∧
      (∀ item ∈ registered.declared, ∀ index, item.heading.symbol = some index →
        registered.table.type? index = item.type ∧ (item.heading.kind ≠ .binding → item.type.isSome)) ∧
      (∀ index type, registered.table.type? index = some type →
        ∃ final, resolved.table.type? index = some final ∧ final.bare = type.bare) ∧
      resolved.files.map Node.frameAll = registered.files.map Node.frameAll ∧
      ∀ nodes ∈ resolved.files, SayTypes (Node.expressionsAll nodes) := by
  intro registered
  obtain ⟨resolved, run, completes, outcomes, runs⟩ := Resolved.exists_settled (wellFormed_treesOf files)
  have framed := Resolved.hasFrame_files (wellFormed_treesOf files) run
  refine ⟨resolved, run, completes.shape, fun item member index own => ⟨?_, ?_⟩, ?_, ?_, ?_⟩
  · exact (Registered.laysOut_declared (treesOf files)).types item member index own
  · rw [Registered.declared_ofFiles] at member
    exact Plan.isSome_type_of_declared item member
  · intro index type known
    obtain ⟨final, _, bare, last⟩ := runs.exists_written known
    exact ⟨final, last, bare⟩
  · exact Resolved.map_frameAll_files (wellFormed_treesOf files) run
  · intro nodes member
    obtain ⟨_, _, frame⟩ := exists_mem_related framed.flip member
    exact frame.1

end Cadence
