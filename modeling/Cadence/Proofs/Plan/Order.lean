import Cadence.Proofs.Plan.Scoping

/-!
# Names whose place does not matter

If the names of all global declarations are distinct, it makes no difference to what a name denotes
which of them were made before it. The names in a plan are then bound in the same way wherever the
plan stands among others, up to the symbols that the declarations have there.
-/
namespace Cadence

variable {declared : List Declaration} {name : String} {declaration : Declaration}

/-- The names of some declarations are distinct. -/
def HaveDistinctNames (declared : List Declaration) : Prop := (declared.map Declaration.name).Nodup

theorem HaveDistinctNames.eq_of_name (distinct : HaveDistinctNames declared) {left right : Declaration}
    (first : left ∈ declared) (second : right ∈ declared) (same : left.name = right.name) : left = right :=
  List.inj_on_of_nodup_map distinct first second same

theorem mem_of_first? (found : first? name declared = some declaration) :
    declaration ∈ declared ∧ declaration.name = name :=
  ⟨List.mem_of_find?_eq_some found, by simpa using List.find?_some found⟩

theorem mem_of_latest? (found : latest? name declared = some declaration) :
    declaration ∈ declared ∧ declaration.name = name :=
  (mem_of_first? found).imp_left List.mem_reverse.mp

theorem exists_first? (member : declaration ∈ declared) (own : declaration.name = name) :
    ∃ first, first? name declared = some first :=
  Option.isSome_iff_exists.mp (List.find?_isSome.mpr ⟨declaration, member, by simpa using own⟩)

/-- A name stands for the only declaration that has it. -/
theorem HaveDistinctNames.first?_eq_some (distinct : HaveDistinctNames declared) :
    first? name declared = some declaration ↔ declaration ∈ declared ∧ declaration.name = name := by
  refine ⟨mem_of_first?, fun ⟨member, own⟩ => ?_⟩
  obtain ⟨first, found⟩ := exists_first? member own
  obtain ⟨present, same⟩ := mem_of_first? found
  rw [found, distinct.eq_of_name present member (same.trans own.symm)]

theorem latest?_headings (name : String) (declared : List Declaration) :
    (latest? name declared).map Declaration.heading =
      (headings declared).reverse.find? fun heading => heading.name = name := by
  rw [latest?, first?, headings, ← List.map_reverse, List.find?_map]
  rfl

/-- What is known of a declaration by its name is known of the only one that has the name. -/
theorem HaveDistinctNames.map_first?_eq_some (distinct : HaveDistinctNames declared) {heading : Heading} :
    (first? name declared).map Declaration.heading = some heading ↔
      heading ∈ headings declared ∧ heading.name = name := by
  simp only [Option.map_eq_some_iff, distinct.first?_eq_some, headings, List.mem_map]
  constructor
  · rintro ⟨declaration, ⟨member, own⟩, rfl⟩
    exact ⟨⟨declaration, member, rfl⟩, own⟩
  · rintro ⟨⟨declaration, member, rfl⟩, own⟩
    exact ⟨declaration, ⟨member, own⟩, rfl⟩

theorem Heading.rename_eq_id : Heading.rename id = id := funext Heading.rename_id

namespace Environment

variable {around around' : Environment}

/-- All global declarations can be referred to, and each name denotes one of them at most. -/
structure IsOrderless (around : Environment) : Prop where
  distinct : HaveDistinctNames around.globals
  made : around.earlier ⊆ around.globals
  complete : around.globals ⊆ around.earlier ++ around.globals.drop around.earlier.length

/-- What was made before makes no difference. -/
theorem IsOrderless.global_eq (orderless : around.IsOrderless) (name : String) :
    (latest? name around.earlier).or (first? name (around.globals.drop around.earlier.length)) =
      first? name around.globals := by
  refine Option.ext fun declaration => ?_
  rw [orderless.distinct.first?_eq_some]
  constructor
  · intro found
    rcases Option.or_eq_some_iff.mp found with earlier | ⟨_, later⟩
    · exact (mem_of_latest? earlier).imp_left fun member => orderless.made member
    · exact (mem_of_first? later).imp_left List.mem_of_mem_drop
  · rintro ⟨member, own⟩
    -- names are distinct, so a declaration that is found is the only one of its name
    have unique {other : Declaration} (present : other ∈ around.globals) (same : other.name = name) :
        other = declaration := orderless.distinct.eq_of_name present member (same.trans own.symm)
    -- it was made already, or it is found among those that are made later
    cases earlier : latest? name around.earlier with
    | some other =>
      obtain ⟨present, same⟩ := mem_of_latest? earlier
      exact congrArg some (unique (orderless.made present) same)
    | none =>
      have later : declaration ∈ around.globals.drop around.earlier.length := by
        refine (List.mem_append.mp (orderless.complete member)).resolve_left fun before => ?_
        obtain ⟨_, found⟩ := exists_first? (List.mem_reverse.mpr before) own
        exact absurd (earlier.symm.trans found) nofun
      obtain ⟨other, found⟩ := exists_first? later own
      obtain ⟨present, same⟩ := mem_of_first? found
      rw [Option.none_or, found, unique (List.mem_of_mem_drop present) same]

theorem IsOrderless.denoted?_eq (orderless : around.IsOrderless) (name : String) :
    around.denoted? name =
      (around.bodies.findSome? (latest? name)).or (first? name around.globals) := by
  rw [← orderless.global_eq]
  simp only [denoted?, Option.orElse_eq_orElse, Option.orElse_eq_or]

/-- It stays that way while some declarations are made. -/
def StaysOrderless (around : Environment) (declared : List Declaration) : Prop :=
  ∀ made, made <+: declared → (around.declare made).IsOrderless

namespace StaysOrderless

variable {first second : List Declaration}

theorem start (stays : around.StaysOrderless declared) : around.IsOrderless := by
  have nothing := stays [] List.nil_prefix
  rwa [declare_nil] at nothing

theorem left (stays : around.StaysOrderless (first ++ second)) : around.StaysOrderless first :=
  fun made initial => stays made (initial.trans (List.prefix_append _ _))

theorem right (stays : around.StaysOrderless (first ++ second)) :
    (around.declare first).StaysOrderless second := fun made initial => by
  rw [← declare_append]
  exact stays _ ((List.prefix_append_right_inj _).mpr initial)

/-- In a body, no global declarations are made. -/
theorem enter (orderless : around.IsOrderless) (parameters declared : List Declaration) :
    (around.enter parameters).StaysOrderless declared := fun _ _ =>
  ⟨orderless.distinct, orderless.made, orderless.complete⟩

end StaysOrderless

/-- Two places are surrounded by the same declarations, with other symbols. -/
structure Corresponds (σ : SymbolIndex → SymbolIndex) (around around' : Environment) : Prop where
  bodies : List.Forall₂ (fun body body' => headings body' = (headings body).map (Heading.rename σ))
    around.bodies around'.bodies
  globals : ∀ name, (first? name around'.globals).map Declaration.heading =
    ((first? name around.globals).map Declaration.heading).map (Heading.rename σ)

namespace Corresponds

variable {σ : SymbolIndex → SymbolIndex} {first second : List Declaration}

theorem refl (around : Environment) : around.Corresponds id around where
  bodies := List.forall₂_same.mpr fun body _ => by simp [Heading.rename_eq_id]
  globals := fun name => by rw [Heading.rename_eq_id, Option.map_id_fun, id]

theorem declare (corresponds : around.Corresponds σ around')
    (same : headings second = (headings first).map (Heading.rename σ)) :
    (around.declare first).Corresponds σ (around'.declare second) := by
  obtain ⟨bodies, earlier, globals⟩ := around
  obtain ⟨bodies', earlier', globals'⟩ := around'
  obtain ⟨inBodies, inGlobals⟩ := corresponds
  cases inBodies with
  | nil => exact ⟨.nil, inGlobals⟩
  | cons body outer => exact ⟨.cons (by simp [body, same]) outer, inGlobals⟩

theorem enter (corresponds : around.Corresponds σ around')
    (same : headings second = (headings first).map (Heading.rename σ)) :
    (around.enter first).Corresponds σ (around'.enter second) :=
  ⟨.cons same corresponds.bodies, corresponds.globals⟩

theorem latest_eq {body body' : List Declaration}
    (same : headings body' = (headings body).map (Heading.rename σ)) (name : String) :
    (latest? name body').map Declaration.heading =
      ((latest? name body).map Declaration.heading).map (Heading.rename σ) := by
  rw [latest?_headings, latest?_headings, same, ← List.map_reverse, List.find?_map]
  rfl

/-- The innermost body that has a name hides it in all others, on both sides. -/
theorem findSome_eq {bodies bodies' : List (List Declaration)}
    (same : List.Forall₂ (fun body body' => headings body' = (headings body).map (Heading.rename σ))
      bodies bodies') (name : String) :
    (bodies'.findSome? (latest? name)).map Declaration.heading =
      ((bodies.findSome? (latest? name)).map Declaration.heading).map (Heading.rename σ) := by
  induction same with
  | nil => rfl
  | @cons body body' outer outer' first rest ih =>
    have own := latest_eq first name
    cases found : latest? name body with
    | none =>
      have nothing : latest? name body' = none := by simpa [found] using own
      simpa [List.findSome?_cons, found, nothing] using ih
    | some declaration =>
      rw [found] at own
      obtain ⟨other, present, _⟩ := Option.map_eq_some_iff.mp own
      rw [present] at own
      simpa only [List.findSome?_cons, found, present] using own

theorem headingOf?_eq (corresponds : around.Corresponds σ around') (orderless : around.IsOrderless)
    (orderless' : around'.IsOrderless) (name : String) :
    around'.headingOf? name = (around.headingOf? name).map (Heading.rename σ) := by
  rw [headingOf?, headingOf?, orderless.denoted?_eq, orderless'.denoted?_eq, Option.map_or, Option.map_or,
    Option.map_or, findSome_eq corresponds.bodies, corresponds.globals]

theorem symbolOf?_eq (corresponds : around.Corresponds σ around') (orderless : around.IsOrderless)
    (orderless' : around'.IsOrderless) (name : String) :
    around'.symbolOf? name = (around.symbolOf? name).map σ := by
  rw [symbolOf?, symbolOf?, corresponds.headingOf?_eq orderless orderless']
  cases around.headingOf? name <;> rfl

theorem structOf?_eq (corresponds : around.Corresponds σ around') (orderless : around.IsOrderless)
    (orderless' : around'.IsOrderless) (path : Identifier) (known : Option SymbolIndex) :
    around'.structOf? path (known.map σ) = (around.structOf? path known).map σ := by
  rw [structOf?, structOf?, corresponds.headingOf?_eq orderless orderless']
  cases around.headingOf? path.value with
  | none => rfl
  | some heading => exact (apply_ite (Option.map σ) _ _ _).symm

theorem misnamedReference_eq (corresponds : around.Corresponds σ around')
    (orderless : around.IsOrderless) (orderless' : around'.IsOrderless) :
    around'.misnamedReference = around.misnamedReference := by
  funext name
  rw [misnamedReference, misnamedReference, corresponds.headingOf?_eq orderless orderless']
  cases around.headingOf? name.value <;> rfl

theorem misnamedType_eq (corresponds : around.Corresponds σ around')
    (orderless : around.IsOrderless) (orderless' : around'.IsOrderless) :
    around'.misnamedType = around.misnamedType := by
  funext path
  rw [misnamedType, misnamedType, corresponds.headingOf?_eq orderless orderless']
  cases around.headingOf? path.value <;> rfl

end Corresponds

end Environment

section Types

variable {around around' : Environment} {σ : SymbolIndex → SymbolIndex}
  (corresponds : around.Corresponds σ around') (orderless : around.IsOrderless)
  (orderless' : around'.IsOrderless)
include corresponds orderless orderless'

theorem Ty.bind_rename (type : Ty) : (type.rename σ).bind around' = (type.bind around).rename σ := by
  induction type using Ty.byParts with
  | builtin | struct => rfl
  | pointer target ih => exact congrArg Ty.pointer ih
  | procedure parameters isVariadic result ihParameters ihResult =>
    simp only [rename, mapNames, bind, bindParameters_eq, mapParameterNames_eq, List.map_map] at ihResult ihParameters ⊢
    rw [ihResult]
    congr 1
    refine List.map_congr_left fun parameter member => ?_
    exact congrArg (Prod.mk parameter.1) (ihParameters parameter member)
  | named path known => exact congrArg (Ty.named path) (corresponds.structOf?_eq orderless orderless' path known)

theorem Ty.misnamed_rename (type : Ty) : (type.rename σ).misnamed around' = type.misnamed around := by
  rw [rename, misnamed_mapNames]
  induction type using Ty.byParts with
  | builtin | struct => rfl
  | pointer target ih => exact ih
  | procedure parameters isVariadic result ihParameters ihResult =>
    rw [misnamed, misnamed, ihResult, misnamedParameters_eq, misnamedParameters_eq]
    exact congrArg (· ++ _) (List.flatMap_congr ihParameters)
  | named path known => exact congrFun (corresponds.misnamedType_eq orderless orderless') path

theorem Member.misnamed_rename (members : List Member) :
    Member.misnamed around' (members.map (Member.map σ (Ty.rename σ))) = Member.misnamed around members := by
  rw [misnamed, misnamed, List.flatMap_map]
  exact List.flatMap_congr fun member _ =>
    Ty.misnamed_rename corresponds orderless orderless' member.type.value

theorem Ty.misnamedOption_rename (type : Option Annotation) :
    Ty.misnamedOption around' (type.map (Spanned.map (Ty.rename σ))) = Ty.misnamedOption around type := by
  cases type with
  | none => rfl
  | some annotated => exact Ty.misnamed_rename corresponds orderless orderless' annotated.value

theorem ProcedureHead.misnamed_rename (head : ProcedureHead) :
    (head.map σ (Ty.rename σ)).misnamed around' = head.misnamed around := by
  have parameters := Member.misnamed_rename corresponds orderless orderless' head.parameters
  have result := Ty.misnamedOption_rename corresponds orderless orderless' head.result
  simp only [misnamed, map, parameters, result]

/-- To rename symbols and to bind names are one and the same in either order. -/
theorem Ty.bind_comp_rename : Ty.bind around' ∘ Ty.rename σ = Ty.rename σ ∘ Ty.bind around :=
  funext (Ty.bind_rename corresponds orderless orderless')

end Types

namespace Plan

variable {σ : SymbolIndex → SymbolIndex}

theorem declarations_rename (plan : Plan) :
    (plan.rename σ).declarations = Declaration.renameAll σ plan.declarations := by
  rw [Declaration.renameAll_eq]
  induction plan with
  | value | stated | reference | external => rfl
  | field span target name ih => exact ih
  | expression span inner ih => exact ih
  | procedure head body ih =>
    have parameters : Member.declarations (head.map σ (Ty.rename σ)).parameters = _ :=
      Member.declarations_map head.parameters
    simp [rename, declarations, Declaration.rename, Declaration.renameAll_eq, ih, parameters,
      ProcedureHead.heading_map]
  | struct declared =>
    have fields : Member.declarations (declared.map σ (Ty.rename σ)).fields = _ :=
      Member.declarations_map declared.fields
    simp [rename, declarations, Declaration.rename, Declaration.renameAll_eq, fields, Struct.heading_map]
  | binding head initial ih =>
    simp [rename, declarations, Declaration.rename, ih, BindingHead.heading_map]
  | combine rule first second ihFirst ihSecond => simp [rename, declarations, ihFirst, ihSecond]

theorem headings_rename (plan : Plan) :
    headings (plan.rename σ).declarations = (headings plan.declarations).map (Heading.rename σ) := by
  rw [declarations_rename, headings_renameAll]

/-- A plan whose symbols are exchanged is bound in the same way where the declarations around it have
the other symbols. -/
theorem bind_rename (plan : Plan) {around around' : Environment}
    (corresponds : around.Corresponds σ around') (stays : around.StaysOrderless plan.declarations)
    (stays' : around'.StaysOrderless (plan.rename σ).declarations) :
    (plan.rename σ).bind around' = (plan.bind around).rename σ ∧
      (plan.rename σ).misnamed around' = plan.misnamed around := by
  -- both environments see the same, whatever was declared in front of the part that is bound
  induction plan generalizing around around' with
  | value => exact ⟨rfl, rfl⟩
  | stated type =>
    exact ⟨congrArg stated (Ty.bind_rename corresponds stays.start stays'.start type),
      Ty.misnamed_rename corresponds stays.start stays'.start type⟩
  | reference span name symbol =>
    exact ⟨congrArg (reference span name) (corresponds.symbolOf?_eq stays.start stays'.start name.value),
      congrFun (corresponds.misnamedReference_eq stays.start stays'.start) name⟩
  | field span target name ih =>
    obtain ⟨bound, misnamed⟩ := ih corresponds stays stays'
    exact ⟨congrArg (Plan.field span · name) bound, misnamed⟩
  | expression span inner ih =>
    obtain ⟨bound, misnamed⟩ := ih corresponds stays stays'
    exact ⟨congrArg (expression span) bound, misnamed⟩
  | external head =>
    have inside : (insideExternal around head).Corresponds σ (insideExternal around' (head.map σ (Ty.rename σ))) :=
      corresponds.declare rfl
    have here := stays _ (List.prefix_refl _)
    have here' := stays' _ (List.prefix_refl _)
    refine ⟨?_, ProcedureHead.misnamed_rename inside here here' head⟩
    simp only [rename, bind, ProcedureHead.map_map]
    rw [Ty.bind_comp_rename inside here here']
    rfl
  | procedure head body ih =>
    have inside : (insideProcedure around head body).Corresponds σ
        (insideProcedure around' (head.map σ (Ty.rename σ)) (body.rename σ)) := corresponds.declare rfl
    have here := stays _ (List.prefix_refl _)
    have here' := stays' _ (List.prefix_refl _)
    -- the body is bound behind the head, where the parameters have been declared on both sides
    obtain ⟨inBody, bodyMisnamed⟩ := ih (inside.enter (Member.headings_map head.parameters))
      (.enter here _ _) (.enter here' _ _)
    constructor
    · simp only [rename, bind, ProcedureHead.map_map]
      rw [Ty.bind_comp_rename inside here here', ← inBody]
      rfl
    · simp only [rename, misnamed]
      rw [ProcedureHead.misnamed_rename inside here here', ← bodyMisnamed]
      rfl
  | struct declared =>
    have inside : (insideStruct around declared).Corresponds σ
        (insideStruct around' (declared.map σ (Ty.rename σ))) := corresponds.declare rfl
    have here := stays _ (List.prefix_refl _)
    have here' := stays' _ (List.prefix_refl _)
    refine ⟨?_, Member.misnamed_rename inside here here' declared.fields⟩
    simp only [rename, bind, Struct.map_map]
    rw [Ty.bind_comp_rename inside here here']
    rfl
  | binding head initial ih =>
    obtain ⟨inInitial, initialMisnamed⟩ := ih corresponds stays.left stays'.left
    have type := Ty.misnamedOption_rename corresponds stays.start stays'.start head.type
    constructor
    · simp only [rename, bind, BindingHead.map_map, inInitial]
      rw [Ty.bind_comp_rename corresponds stays.start stays'.start]
      rfl
    · simp only [rename, misnamed, BindingHead.map, type, initialMisnamed]
  | combine rule first second ihFirst ihSecond =>
    obtain ⟨left, leftMisnamed⟩ := ihFirst corresponds stays.left stays'.left
    obtain ⟨right, rightMisnamed⟩ :=
      ihSecond (corresponds.declare first.headings_rename) stays.right stays'.right
    exact ⟨by simp only [rename, bind, left, right], by simp only [rename, misnamed, leftMisnamed, rightMisnamed]⟩

end Plan

section Whole

variable {made rest : List Declaration}

/-- Behind all global declarations. -/
def Environment.behind (declared : List Declaration) : Environment := ⟨[], declared, declared⟩

/-- While the global declarations are made one after the other, a name can denote any of them. -/
theorem HaveDistinctNames.staysOrderless_before (distinct : HaveDistinctNames (made ++ rest)) :
    Environment.StaysOrderless ⟨[], made, made ++ rest⟩ rest := by
  rintro now ⟨later, rfl⟩
  exact ⟨distinct, by simp [Environment.declare], by simp [Environment.declare]⟩

theorem HaveDistinctNames.staysOrderless_behind (distinct : HaveDistinctNames declared)
    (again : rest ⊆ declared) : (Environment.behind declared).StaysOrderless rest := by
  rintro now ⟨later, rfl⟩
  refine ⟨distinct, ?_, ?_⟩
  · exact List.append_subset.mpr ⟨fun _ => id, fun _ member => again (List.mem_append_left _ member)⟩
  · exact fun _ member => List.mem_append_left _ (List.mem_append_left _ member)

namespace Plan

/-- Where among some plans each of them stands makes no difference to how its names are bound. -/
theorem bindAll_eq {plans : List Plan} (distinct : HaveDistinctNames (made ++ plans.flatMap declarations)) :
    bindAll ⟨[], made, made ++ plans.flatMap declarations⟩ plans =
        plans.map (bind (.behind (made ++ plans.flatMap declarations))) ∧
      (sequence plans).misnamed ⟨[], made, made ++ plans.flatMap declarations⟩ =
        plans.flatMap (misnamed (.behind (made ++ plans.flatMap declarations))) := by
  induction plans generalizing made with
  | nil => exact ⟨rfl, rfl⟩
  | cons first rest ih =>
    rw [List.flatMap_cons] at distinct ⊢
    have stays := distinct.staysOrderless_before
    have own : first.declarations ⊆ made ++ (first.declarations ++ rest.flatMap declarations) :=
      fun _ member => List.mem_append_right _ (List.mem_append_left _ member)
    have corresponds : Environment.Corresponds id
        ⟨[], made, made ++ (first.declarations ++ rest.flatMap declarations)⟩
          (.behind (made ++ (first.declarations ++ rest.flatMap declarations))) :=
      ⟨.nil, (Environment.Corresponds.refl _).globals⟩
    obtain ⟨bound, misnamed⟩ := first.bind_rename corresponds stays.left
      (by rw [rename_id]; exact distinct.staysOrderless_behind own)
    rw [rename_id, rename_id] at bound
    rw [rename_id] at misnamed
    -- the others stand behind what the first one declares
    rw [← List.append_assoc] at distinct bound misnamed ⊢
    obtain ⟨others, othersMisnamed⟩ := ih distinct
    rw [bindAll, sequence, Plan.misnamed, List.map_cons, List.flatMap_cons, bound, misnamed]
    exact ⟨congrArg _ others, congrArg _ othersMisnamed⟩

end Plan

section Reordered

variable {σ : SymbolIndex → SymbolIndex} {plans plans' : List Plan}
  (reorders : plans'.Perm (plans.map (Plan.rename σ)))
include reorders

theorem Plan.headings_reordered : (headings (plans'.flatMap declarations)).Perm
    ((headings (plans.flatMap declarations)).map (Heading.rename σ)) := by
  have same := (reorders.flatMap_right declarations).map Declaration.heading
  refine same.trans (.of_eq ?_)
  rw [headings, List.flatMap_map, List.map_flatMap, List.map_flatMap, List.map_flatMap]
  exact List.flatMap_congr fun plan _ => plan.headings_rename

variable (distinct : HaveDistinctNames (plans.flatMap Plan.declarations))
include distinct

theorem HaveDistinctNames.reordered : HaveDistinctNames (plans'.flatMap Plan.declarations) := by
  have same := (Plan.headings_reordered reorders).map Heading.name
  rw [List.map_map] at same
  simp only [headings, List.map_map] at same
  exact same.nodup_iff.mpr distinct

theorem Environment.corresponds_reordered :
    (behind (plans.flatMap Plan.declarations)).Corresponds σ
      (behind (plans'.flatMap Plan.declarations)) := by
  refine ⟨.nil, fun name => Option.ext fun heading => ?_⟩
  rw [behind, behind, (distinct.reordered reorders).map_first?_eq_some,
    (Plan.headings_reordered reorders).mem_iff, List.mem_map, Option.map_eq_some_iff]
  -- a heading keeps its name when its symbol is exchanged
  constructor
  · rintro ⟨⟨former, member, rfl⟩, own⟩
    exact ⟨former, distinct.map_first?_eq_some.mpr ⟨member, own⟩, rfl⟩
  · rintro ⟨former, found, rfl⟩
    obtain ⟨member, own⟩ := distinct.map_first?_eq_some.mp found
    exact ⟨⟨former, member, rfl⟩, own⟩

/-- A plan is bound in the same way in either order, with other symbols. -/
theorem Plan.bind_reordered {plan : Plan} (member : plan ∈ plans) :
    (plan.rename σ).bind (.behind (plans'.flatMap declarations)) =
        (plan.bind (.behind (plans.flatMap declarations))).rename σ ∧
      (plan.rename σ).misnamed (.behind (plans'.flatMap declarations)) =
        plan.misnamed (.behind (plans.flatMap declarations)) := by
  refine plan.bind_rename (Environment.corresponds_reordered reorders distinct)
    (distinct.staysOrderless_behind fun _ inside => List.mem_flatMap.mpr ⟨plan, member, inside⟩)
    ((distinct.reordered reorders).staysOrderless_behind fun _ inside => ?_)
  exact List.mem_flatMap.mpr ⟨_, reorders.mem_iff.mpr (List.mem_map_of_mem member), inside⟩

theorem Plan.map_bind_reordered :
    (plans'.map (bind (.behind (plans'.flatMap declarations)))).Perm
      ((plans.map (bind (.behind (plans.flatMap declarations)))).map (rename σ)) := by
  refine (reorders.map _).trans (.of_eq ?_)
  rw [List.map_map, List.map_map]
  exact List.map_congr_left fun plan member => (bind_reordered reorders distinct member).1

theorem Plan.misnamed_reordered :
    (plans'.flatMap (misnamed (.behind (plans'.flatMap declarations)))).Perm
      (plans.flatMap (misnamed (.behind (plans.flatMap declarations)))) := by
  refine (reorders.flatMap_right _).trans (.of_eq ?_)
  rw [List.flatMap_map]
  exact List.flatMap_congr fun plan member => (bind_reordered reorders distinct member).2

end Reordered

end Whole

end Cadence
