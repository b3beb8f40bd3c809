import Cadence.Proofs.Syntax.Types
import Mathlib.Data.List.Basic

/-!
# The names in types

What a name in a type records can be changed without a change of anything else in the type. To
forget all of it leaves the type as it is written.
-/
namespace Cadence

/-- Types are built from their parts. -/
@[elab_as_elim]
theorem Ty.byParts {motive : Ty → Prop} (builtin : ∀ type, motive (.builtin type))
    (pointer : ∀ target, motive target → motive (.pointer target))
    (procedure : ∀ parameters isVariadic result, (∀ parameter ∈ parameters, motive parameter.2) →
      motive result → motive (.procedure parameters isVariadic result))
    (struct : ∀ name fields, (∀ field ∈ fields, motive field.2) → motive (.struct name fields))
    (named : ∀ path symbol, motive (.named path symbol)) (type : Ty) : motive type :=
  match type with
  | .builtin type => builtin type
  | .pointer target => pointer target (target.byParts builtin pointer procedure struct named)
  | .procedure parameters isVariadic result =>
    procedure parameters isVariadic result
      (fun parameter _member => parameter.2.byParts builtin pointer procedure struct named)
      (result.byParts builtin pointer procedure struct named)
  | .struct name fields =>
    struct name fields fun field _member => field.2.byParts builtin pointer procedure struct named
  | .named path symbol => named path symbol
termination_by sizeOf type
decreasing_by
  · simp
  · have smaller := List.sizeOf_lt_of_mem _member
    have part : sizeOf parameter = 1 + sizeOf parameter.1 + sizeOf parameter.2 := rfl
    simp only [Ty.procedure.sizeOf_spec]
    omega
  · simp
  · have smaller := List.sizeOf_lt_of_mem _member
    have part : sizeOf field = 1 + sizeOf field.1 + sizeOf field.2 := rfl
    simp only [Ty.struct.sizeOf_spec]
    omega

section Changes

variable (change : Identifier → Option SymbolIndex → Option SymbolIndex)

mutual

/-- The type whose names record something else. -/
def Ty.mapNames : Ty → Ty
  | .builtin type => .builtin type
  | .pointer target => .pointer target.mapNames
  | .procedure parameters isVariadic result =>
    .procedure (Ty.mapParameterNames parameters) isVariadic result.mapNames
  | .struct name fields => .struct name (Ty.mapFieldNames fields)
  | .named path symbol => .named path (change path symbol)

def Ty.mapParameterNames : List (Option String × Ty) → List (Option String × Ty)
  | [] => []
  | (name, type) :: rest => (name, type.mapNames) :: Ty.mapParameterNames rest

def Ty.mapFieldNames : List (String × Ty) → List (String × Ty)
  | [] => []
  | (name, type) :: rest => (name, type.mapNames) :: Ty.mapFieldNames rest

end

theorem Ty.mapParameterNames_eq (parameters : List (Option String × Ty)) :
    Ty.mapParameterNames change parameters =
      parameters.map fun parameter => (parameter.1, parameter.2.mapNames change) := by
  induction parameters with
  | nil => rfl
  | cons first rest ih => simp [mapParameterNames, ih]

theorem Ty.mapFieldNames_eq (fields : List (String × Ty)) :
    Ty.mapFieldNames change fields = fields.map fun field => (field.1, field.2.mapNames change) := by
  induction fields with
  | nil => rfl
  | cons first rest ih => simp [mapFieldNames, ih]

end Changes

namespace Ty

variable {change further : Identifier → Option SymbolIndex → Option SymbolIndex}
  {holds holds' : Identifier → Option SymbolIndex → Prop}

/-- Changes that do the same to the names in a type do the same to the type. -/
theorem mapNames_congr {type : Ty}
    (same : type.AllNames fun path symbol => change path symbol = further path symbol) :
    type.mapNames change = type.mapNames further := by
  induction type using Ty.byParts with
  | builtin => rfl
  | pointer target ih => exact congrArg Ty.pointer (ih same)
  | procedure parameters isVariadic result ihParameters ihResult =>
    have inner := (allParameterNames_iff _ parameters).mp same.1
    rw [mapNames, mapNames, mapParameterNames_eq, mapParameterNames_eq, ihResult same.2]
    congr 1
    refine List.map_congr_left fun parameter member => ?_
    rw [ihParameters parameter member (inner parameter member)]
  | struct name fields ih =>
    have inner := (allFieldNames_iff _ fields).mp same
    rw [mapNames, mapNames, mapFieldNames_eq, mapFieldNames_eq]
    congr 1
    refine List.map_congr_left fun field member => ?_
    rw [ih field member (inner field member)]
  | named path symbol => exact congrArg (Ty.named path) same

theorem mapNames_mapNames (type : Ty) : (type.mapNames change).mapNames further =
    type.mapNames fun path symbol => further path (change path symbol) := by
  induction type using Ty.byParts with
  | builtin | named => rfl
  | pointer target ih => exact congrArg Ty.pointer ih
  | procedure parameters isVariadic result ihParameters ihResult =>
    simp only [mapNames, mapParameterNames_eq, List.map_map, ihResult]
    congr 1
    exact List.map_congr_left fun parameter member => congrArg _ (ihParameters parameter member)
  | struct name fields ih =>
    simp only [mapNames, mapFieldNames_eq, List.map_map]
    congr 1
    exact List.map_congr_left fun field member => congrArg _ (ih field member)

theorem mapNames_id (type : Ty) : (type.mapNames fun _ symbol => symbol) = type := by
  induction type using Ty.byParts with
  | builtin | named => rfl
  | pointer target ih => exact congrArg Ty.pointer ih
  | procedure parameters isVariadic result ihParameters ihResult =>
    rw [mapNames, mapParameterNames_eq, ihResult]
    congr 1
    refine (List.map_congr_left fun parameter member => ?_).trans (List.map_id parameters)
    rw [ihParameters parameter member, id]
  | struct name fields ih =>
    rw [mapNames, mapFieldNames_eq]
    congr 1
    refine (List.map_congr_left fun field member => ?_).trans (List.map_id fields)
    rw [ih field member, id]

/-- What changes nothing about the names in a type does not change the type. -/
theorem mapNames_eq_self {type : Ty}
    (same : type.AllNames fun path symbol => change path symbol = symbol) :
    type.mapNames change = type :=
  (mapNames_congr same).trans type.mapNames_id

theorem allNames_mapNames {type : Ty} : (type.mapNames change).AllNames holds ↔
    type.AllNames fun path symbol => holds path (change path symbol) := by
  induction type using Ty.byParts with
  | builtin | named => rfl
  | pointer target ih => exact ih
  | procedure parameters isVariadic result ihParameters ihResult =>
    rw [mapNames, AllNames, AllNames, ihResult, mapParameterNames_eq, allParameterNames_iff,
      allParameterNames_iff, List.forall_mem_map]
    exact and_congr_left' (forall₂_congr ihParameters)
  | struct name fields ih =>
    rw [mapNames, AllNames, AllNames, mapFieldNames_eq, allFieldNames_iff, allFieldNames_iff,
      List.forall_mem_map]
    exact forall₂_congr ih

mutual

/-- The names in a type. -/
def names : Ty → List (Identifier × Option SymbolIndex)
  | .builtin _ => []
  | .pointer target => target.names
  | .procedure parameters _ result => parameterNames parameters ++ result.names
  | .struct _ fields => fieldNames fields
  | .named path symbol => [(path, symbol)]

def parameterNames : List (Option String × Ty) → List (Identifier × Option SymbolIndex)
  | [] => []
  | (_, type) :: rest => type.names ++ parameterNames rest

def fieldNames : List (String × Ty) → List (Identifier × Option SymbolIndex)
  | [] => []
  | (_, type) :: rest => type.names ++ fieldNames rest

end

theorem parameterNames_eq (parameters : List (Option String × Ty)) :
    parameterNames parameters = parameters.flatMap fun parameter => parameter.2.names := by
  induction parameters with
  | nil => rfl
  | cons first rest ih => simp [parameterNames, ih]

theorem fieldNames_eq (fields : List (String × Ty)) :
    fieldNames fields = fields.flatMap fun field => field.2.names := by
  induction fields with
  | nil => rfl
  | cons first rest ih => simp [fieldNames, ih]

theorem allNames_iff {type : Ty} :
    type.AllNames holds ↔ ∀ name ∈ type.names, holds name.1 name.2 := by
  induction type using Ty.byParts with
  | builtin => simp [AllNames, names]
  | pointer target ih => exact ih
  | procedure parameters isVariadic result ihParameters ihResult =>
    rw [AllNames, names, parameterNames_eq, List.forall_mem_append, List.forall_mem_flatMap, ihResult,
      allParameterNames_iff]
    exact and_congr_left' (forall₂_congr ihParameters)
  | struct name fields ih =>
    rw [AllNames, names, fieldNames_eq, List.forall_mem_flatMap, allFieldNames_iff]
    exact forall₂_congr ih
  | named path symbol => simp [AllNames, names]

theorem AllNames.and {type : Ty} (left : type.AllNames holds) (right : type.AllNames holds') :
    type.AllNames fun path symbol => holds path symbol ∧ holds' path symbol :=
  allNames_iff.mpr fun name member =>
    ⟨allNames_iff.mp left name member, allNames_iff.mp right name member⟩

/-- The type as it is written, with nothing recorded about its names. -/
def bare : Ty → Ty := mapNames fun _ _ => none

/-- The type with other symbols recorded for its names. -/
def rename (σ : SymbolIndex → SymbolIndex) : Ty → Ty :=
  mapNames fun _ symbol => symbol.map σ

theorem rename_rename {σ : SymbolIndex → SymbolIndex} (τ : SymbolIndex → SymbolIndex) (type : Ty) :
    (type.rename σ).rename τ = type.rename (τ ∘ σ) := by
  simp only [rename, mapNames_mapNames, Option.map_map]

@[simp]
theorem rename_id (type : Ty) : type.rename id = type :=
  mapNames_eq_self (allNames_iff.mpr fun _ _ => congrFun Option.map_id _)

theorem bare_mapNames (type : Ty) : (type.mapNames change).bare = type.bare :=
  mapNames_mapNames type

mutual

/-- A type that can be written down: there is no struct in it other than by name. -/
def IsPlain : Ty → Prop
  | .builtin _ | .named _ _ => True
  | .pointer target => target.IsPlain
  | .procedure parameters _ result => ParametersArePlain parameters ∧ result.IsPlain
  | .struct _ _ => False

def ParametersArePlain : List (Option String × Ty) → Prop
  | [] => True
  | (_, type) :: rest => type.IsPlain ∧ ParametersArePlain rest

end

theorem parametersArePlain_iff (parameters : List (Option String × Ty)) :
    ParametersArePlain parameters ↔ ∀ parameter ∈ parameters, parameter.2.IsPlain := by
  induction parameters with
  | nil => simp [ParametersArePlain]
  | cons first rest ih => simp [ParametersArePlain, ih]

@[simp]
theorem isPlain_mapNames {type : Ty} : (type.mapNames change).IsPlain ↔ type.IsPlain := by
  induction type using Ty.byParts with
  | builtin | named | struct => rfl
  | pointer target ih => exact ih
  | procedure parameters isVariadic result ihParameters ihResult =>
    rw [mapNames, IsPlain, IsPlain, ihResult, mapParameterNames_eq, parametersArePlain_iff,
      parametersArePlain_iff, List.forall_mem_map]
    exact and_congr_left' (forall₂_congr ihParameters)

/-- A type as it is written down: there is no struct in it other than by name, and nothing is recorded
about its names. -/
structure IsWritten (type : Ty) : Prop where
  plain : type.IsPlain
  unbound : type.AllNames fun _ symbol => symbol = none

end Ty

theorem ProcedureHead.isPlain_type {head : ProcedureHead} (types : head.AllTypes Ty.IsPlain) :
    head.type.IsPlain := by
  refine ⟨(Ty.parametersArePlain_iff _).mpr fun parameter member => ?_, ?_⟩
  · obtain ⟨declared, present, rfl⟩ := List.mem_map.mp member
    exact types.1 declared present
  · cases known : head.result with
    | none => trivial
    | some result => exact types.2 result known

/-- The type of a procedure can be written down if those of its parameters and its result can. -/
theorem ProcedureHead.isWritten_type {head : ProcedureHead} (types : head.AllTypes Ty.IsWritten) :
    head.type.IsWritten where
  plain := isPlain_type ⟨fun parameter member => (types.1 parameter member).plain,
    fun result known => (types.2 result known).plain⟩
  unbound := allNames_type ⟨fun parameter member => (types.1 parameter member).unbound,
    fun result known => (types.2 result known).unbound⟩

end Cadence
