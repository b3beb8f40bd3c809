import Cadence.Proofs.Parse.Naming
import Cadence.Proofs.Plan.Fields
import Cadence.Proofs.Resolution.Failures
import Cadence.Proofs.Text.Difference

/-!
# Names that are offered

Where a name or a field is reported not to be there, a similar one may be offered instead. It is not the one
that is written, it is there at that place, and the note quotes it character by character. Still, not every
name that is offered can be written: it may be that of an operator, or the placeholder for the lack of one.
-/
namespace Cadence

open Source (File)
open Text (quoted)

/-- A note that offers a name says that there is something with a similar name, and quotes it. Behind it
nothing follows but the name that is written, if the difference is not obvious. -/
def Note.Quotes (note : Note) (written candidate : String) : Prop :=
  ∃ introduction ∈ ["a binding with a similar name exists in scope: ", "a field with a similar name exists: "],
    note.text = introduction ++ quoted candidate ∨
      note.text = introduction ++ quoted candidate ++ " (instead of " ++ quoted written ++ ")"

/-- Where a name is used, it denotes nothing, but the candidate, which is similar to it, denotes a declaration
that has a symbol. -/
structure Sighting.Offers (sighting : Sighting) (written : Identifier) (candidate : String) : Prop where
  name_eq : sighting.name = written
  similar : isLookalike written.value candidate = true
  absent : sighting.around.denoted? written.value = none
  present : ∃ declaration, sighting.around.denoted? candidate = some declaration ∧ declaration.symbol?.isSome
  isDeclaredName : IsDeclaredName candidate

/-- Where a field is asked of a struct, it does not have that field, but the candidate, which is similar. -/
structure Access.Offers (access : Access) (written : Identifier) (candidate : String) : Prop where
  field_eq : access.field = written
  similar : isLookalike written.value candidate = true
  absent : access.layout.fieldType? written = none
  present : ∀ span, (access.layout.fieldType? ⟨candidate, span⟩).isSome
  isIdentifier : IsIdentifier candidate

theorem Sighting.Offers.ne {sighting : Sighting} {written : Identifier} {candidate : String}
    (offers : sighting.Offers written candidate) : candidate ≠ written.value := by
  rintro rfl
  obtain ⟨declaration, denoted, -⟩ := offers.present
  cases offers.absent.symm.trans denoted

theorem Access.Offers.ne {access : Access} {written : Identifier} {candidate : String}
    (offers : access.Offers written candidate) : candidate ≠ written.value := by
  rintro rfl
  have present := offers.present written.span
  rw [offers.absent] at present
  cases present

/-- What a suggestion shows first is the candidate, whatever it has in common with what is written. -/
theorem suggestion_eq (written candidate : String) :
    suggestion written candidate = quoted candidate ∨
      suggestion written candidate = quoted candidate ++ " (instead of " ++ quoted written ++ ")" := by
  unfold suggestion
  extract_lets difference shown isRemoval isObvious
  have shown_eq : String.join shown = candidate := by
    -- what is shown of a change is what it leaves in the candidate
    refine (congrArg String.join (List.map_congr_left fun change _ => ?_)).trans
      (Text.editedText_changeset written candidate)
    cases change <;> rfl
  rw [shown_eq]
  split
  · exact .inl String.append_empty
  · exact .inr (by simp only [String.append_assoc])

/-- The candidate that an error offers. -/
def ResolutionError.lookalike? : ResolutionError → Option String
  | undefinedName _ lookalike | undefinedField _ _ lookalike => lookalike
  | notAType _ _ | noFields _ _ _ => none

/-- Nothing but the candidate of an error is offered as a way to solve it. -/
theorem ResolutionError.exists_quotes {error : ResolutionError} {note : Note}
    (member : note ∈ error.diagnostic.notes) (isHelp : note.kind = .help) :
    ∃ candidate ∈ error.lookalike?, note.Quotes error.fault.name.value candidate := by
  have quotes {introduction written candidate : String}
      (known : introduction ∈ ["a binding with a similar name exists in scope: ",
        "a field with a similar name exists: "]) :
      (Note.mk .help (introduction ++ suggestion written candidate)).Quotes written candidate := by
    refine ⟨introduction, known, ?_⟩
    refine (suggestion_eq written candidate).imp (congrArg (introduction ++ ·)) fun same => ?_
    simp only [same, String.append_assoc]
  -- the errors with a help are those about a name that is not found
  cases error with
  | undefinedName name lookalike =>
    cases lookalike with
    | none => cases member
    | some candidate =>
      obtain rfl := List.mem_singleton.mp member
      exact ⟨candidate, rfl, quotes (by simp)⟩
  | notAType name declaration =>
    obtain rfl := List.mem_singleton.mp member
    cases isHelp
  | noFields => cases member
  | undefinedField struct field lookalike =>
    cases lookalike with
    | none => cases member
    | some candidate =>
      obtain rfl := List.mem_singleton.mp member
      exact ⟨candidate, rfl, quotes (by simp)⟩

/-- What is declared is called in one of the ways in which declarations are, and it has a symbol. -/
def Heading.IsRegistered (heading : Heading) : Prop := IsDeclaredName heading.name ∧ heading.symbol.isSome

section Offers

variable {error : ResolutionError} {candidate : String}

/-- What is offered instead of a name that denotes nothing is in sight there. -/
theorem Sighting.offers {sighting : Sighting} {table : SymbolTable}
    (expects : sighting.around.Expects Heading.IsRegistered []) (reported : error ∈ sighting.errors table)
    (found : candidate ∈ error.lookalike?) :
    error.fault.code = .e020 ∧ sighting.Offers error.fault.name candidate := by
  have offers (name : Identifier) (own : sighting.name = name)
      (absent : sighting.around.headingOf? name.value = none)
      (found : candidate ∈ sighting.around.lookalike? name.value) : sighting.Offers name candidate := by
    -- the candidate was sought among the names in sight, and each of them denotes something
    obtain ⟨declaration, denoted⟩ := expects.exists_denoted (List.mem_of_find?_eq_some found)
    obtain ⟨isName, symbol⟩ := expects.denoted denoted
    refine ⟨own, List.find?_some found, Option.map_eq_none_iff.mp absent, ⟨declaration, denoted, symbol⟩, ?_⟩
    exact Environment.name_of_denoted? denoted ▸ isName
  cases sighting with
  | reference around name symbol =>
    simp only [Sighting.errors, Environment.referenceErrors] at reported
    split at reported
    next => cases reported
    next absent =>
      obtain rfl := List.mem_singleton.mp reported
      exact ⟨rfl, offers name rfl absent found⟩
  | typeName around path symbol =>
    simp only [Sighting.errors, Environment.typeErrors] at reported
    split at reported
    next heading present =>
      split at reported
      next => cases reported
      next =>
        obtain rfl := List.mem_singleton.mp reported
        cases found
    next absent =>
      obtain rfl := List.mem_singleton.mp reported
      exact ⟨rfl, offers path rfl absent found⟩

/-- What is offered instead of a field that a struct does not have is one of its fields. -/
theorem Access.offers {access : Access} (fields : access.layout.HasFields IsIdentifier)
    (reported : access.Reports error) (found : candidate ∈ error.lookalike?) :
    error.fault.code = .e023 ∧ access.Offers error.fault.name candidate := by
  obtain ⟨target, field, layout⟩ := access
  obtain ⟨type, place, own⟩ := reported
  cases layout with
  | unknown => cases own
  | notAStruct =>
    obtain rfl := List.mem_singleton.mp own
    cases found
  | struct name known =>
    simp only [Layout.errors] at own
    split at own
    next => cases own
    next absent =>
      obtain rfl := List.mem_singleton.mp own
      obtain ⟨present, member, rfl⟩ := List.mem_map.mp (List.mem_of_find?_eq_some found)
      refine ⟨rfl, rfl, List.find?_some found, ?_, fun span => ?_, (fields present member).1⟩
      · exact Option.map_eq_none_iff.mpr (Option.not_isSome_iff_eq_none.mp absent)
      · simp only [Layout.fieldType?, Option.isSome_map, List.find?_isSome]
        exact ⟨present, member, by simp⟩

end Offers

namespace Registered

variable (files : List File)

/-- Everything that is declared in a unit has a name and a symbol. -/
theorem names_plan : (ofFiles (treesOf files)).plan.Names Heading.IsRegistered IsIdentifier := by
  rw [plan_ofFiles]
  refine Plan.Names.number (Plan.names_sequence.mpr (List.forall_mem_map.mpr fun nodes member => ?_)) 1
  obtain ⟨file, -, rfl⟩ := List.mem_map.mp member
  exact Node.isNamed_planAll (Parsed.isNamed_nodes file)

theorem names_boundPlan : (ofFiles (treesOf files)).boundPlan.Names Heading.IsRegistered IsIdentifier :=
  (names_plan files).bind _

/-- In front of the first file, all of its declarations come next. -/
theorem expects_environment : (ofFiles (treesOf files)).environment.Expects Heading.IsRegistered
    (ofFiles (treesOf files)).boundPlan.declarations := by
  have same : (ofFiles (treesOf files)).boundPlan.declarations = (ofFiles (treesOf files)).declarations := by
    rw [boundPlan, Plan.declarations_bind, declarations_plan]
  refine ⟨fun declaration member => ?_, List.nil_prefix, fun _ => same ▸ List.prefix_refl _⟩
  exact (names_boundPlan files).declarations declaration
    (same ▸ by simpa [environment, Environment.declarations] using member)

theorem comeUp_types : Types.ComeUp IsIdentifier (ofFiles (treesOf files)).table.type? := by
  rw [types_ofFiles, ← Plan.entries_sequence]
  have nothing : Types.ComeUp IsIdentifier fun _ => none := nofun
  exact nothing.record ((names_plan files).entries (isPlain_plan (wellFormed_treesOf files)))

end Registered

/-- The names that are offered in the diagnostics of resolution are in reach: whatever is offered as a way to
solve an error is a similar name other than the one that is written, and the note quotes exactly this name. Where
a name denotes nothing, the one that is offered denotes a declaration with a symbol there; where a struct does not
have a field, it has the one that is offered. The names of fields are those of identifiers, and so are those of
declarations, unless it is the name of an operator or the placeholder for the lack of a name. The files are those
that were registered. -/
theorem suggestions_are_in_reach (files : List File) :
    ∃ resolved, Resolved.ofRegistered (Registered.ofFiles (treesOf files)) = .ok resolved ∧
      resolved.files.map Node.frameAll = (Registered.ofFiles (treesOf files)).files.map Node.frameAll ∧
      ∀ error ∈ resolved.errors, ∀ note ∈ error.diagnostic.notes, note.kind = .help →
        ∃ candidate, candidate ≠ error.fault.name.value ∧ note.Quotes error.fault.name.value candidate ∧
          ((error.diagnostic.code = some .e020 ∧
              ∃ sighting ∈ unitSightings resolved.files, sighting.Offers error.fault.name candidate) ∨
            error.diagnostic.code = some .e023 ∧
              ∃ access ∈ resolved.accesses (Registered.ofFiles (treesOf files)),
                access.Offers error.fault.name candidate) := by
  have formed := wellFormed_treesOf files
  have plain := Registered.isPlain_plan formed
  obtain ⟨resolved, run, completes, outcomes, runs⟩ := Resolved.exists_settled formed
  have framed := Resolved.map_frameAll_files formed run
  refine ⟨resolved, run, framed, fun error reported note member isHelp => ?_⟩
  obtain ⟨candidate, found, quotes⟩ := ResolutionError.exists_quotes member isHelp
  have code_eq := error.isReportedBy_diagnostic.code_eq
  have names := Registered.names_boundPlan files
  rw [runs.errors_eq] at reported
  -- errors about names and errors about fields are told apart by what they were reported for
  rcases Plan.about_of_mem_lastErrors reported with ⟨sighting, used, about⟩ | ⟨access, asked, about⟩
  · rw [← Registered.boundPlan_eq] at used
    obtain ⟨code, offers⟩ :=
      sighting.offers (names.sightings (Registered.expects_environment files) sighting used) about found
    refine ⟨candidate, offers.ne, quotes, .inl ⟨code ▸ code_eq, sighting, ?_, offers⟩⟩
    -- the names that are used in the resolved files are those of the plan with its names bound
    rw [unitSightings, completes.declared_eq, ← sightings_sequence, runs.plans_eq, ← Registered.boundPlan_eq]
    exact used
  · have written : (Registered.ofFiles (treesOf files)).boundPlan.AllWritten Ty.IsPlain :=
      Plan.allWritten_bind plain _
    rw [Registered.boundPlan_eq] at names written
    have fields := Plan.hasFields_lastAccesses (Plan.names_sequence.mp names)
      (Plan.AllWritten.of_sequence written) (Registered.comeUp_types files) access asked
    obtain ⟨code, offers⟩ := access.offers fields about found
    refine ⟨candidate, offers.ne, quotes, .inr ⟨code ▸ code_eq, access, ?_, offers⟩⟩
    rw [Resolved.accesses, runs.plans_eq]
    exact asked

/-- A file with a procedure whose parameter has no name, and a name that denotes nothing. -/
def unnamedParameter : File := ⟨.anonymous, "proc main(s32) \x7b x \x7d".toList, 1⟩

/-- The placeholder is offered, which no identifier is. -/
theorem placeholder_is_offered :
    (Parsed.ofFile unnamedParameter).errors = [] ∧
    (∃ resolved, Resolved.ofRegistered (Registered.ofFiles (treesOf [unnamedParameter])) = .ok resolved ∧
      ∃ error ∈ resolved.errors, error.diagnostic.code = some .e020 ∧
        ⟨.help, "a binding with a similar name exists in scope: " ++ quoted "_"⟩ ∈ error.diagnostic.notes) ∧
    ∀ file, ∀ token ∈ (Lexed.ofFile file).tokens, token.lexeme ≠ .identifier "_" := by
  have evaluated :
      (match Resolved.ofRegistered (Registered.ofFiles (treesOf [unnamedParameter])) with
      | .ok resolved => resolved.errors.any fun error => error.diagnostic.code = some .e020 &&
          error.diagnostic.notes.contains
            ⟨.help, "a binding with a similar name exists in scope: " ++ quoted "_"⟩
      | .error _ => false) = true := by
    decide +kernel
  refine ⟨by decide +kernel, ?_, fun file token member same => ?_⟩
  · split at evaluated
    next resolved run =>
      obtain ⟨error, member, known⟩ := List.any_eq_true.mp evaluated
      obtain ⟨code, offered⟩ := Bool.and_eq_true_iff.mp known
      exact ⟨resolved, run, error, member, of_decide_eq_true code, List.contains_iff_mem.mp offered⟩
    next => cases evaluated
  · have word := (Lexed.isIdentifier_of_mem member same).ofWord
    revert word
    decide +kernel

end Cadence
