import Cadence.Proofs.Source.Lines

/-!
# The files of a source map do not overlap

Files are added one behind the other with one byte of padding in front of each. So a file that
contains a span is the one that is found for it, and no index exceeds the number of all bytes and
files.
-/
namespace Cadence.Source.Map

variable {map : Map}

/-- The bytes of all files and of the padding in front of them. -/
def extent (map : Map) : Nat := byteSize (map.files.flatMap File.content) + map.files.length * padding

/-- The files lie one behind the other, and none of them behind the place for the next one. -/
structure IsSpaced (map : Map) : Prop where
  positive : ∀ file ∈ map.files, 0 < file.start
  apart : map.files.Pairwise fun left right => left.span.stop < right.span.start
  inside : ∀ file ∈ map.files, file.span.stop < map.nextStart
  nextStart_eq : map.nextStart = map.extent + 1

theorem isSpaced_empty : empty.IsSpaced := by
  constructor <;> simp [empty, nextStart, extent, padding]

theorem nextStart_add (map : Map) (name : FileName) (text : List Char) :
    (map.add name text).nextStart = (map.place name text).span.stop + padding := by
  simp [nextStart, add]

theorem IsSpaced.add (spaced : map.IsSpaced) (name : FileName) (text : List Char) :
    (map.add name text).IsSpaced := by
  obtain ⟨positive, apart, inside, next⟩ := spaced
  have starts : (map.place name text).span.start = map.nextStart := rfl
  have stops : map.nextStart ≤ (map.place name text).span.stop := Nat.le_add_right _ _
  have padded : padding = 1 := rfl
  constructor
  case positive =>
    have new : 0 < (map.place name text).start := Nat.lt_of_lt_of_eq (Nat.succ_pos _) next.symm
    exact List.forall_mem_append.mpr ⟨positive, List.forall_mem_singleton.mpr new⟩
  case apart =>
    -- the new file starts behind the place at which all others have ended
    apply List.pairwise_append.mpr
    refine ⟨apart, List.pairwise_singleton _ _, ?_⟩
    intro left member right last
    rw [List.mem_singleton.mp last]
    exact inside left member
  case inside =>
    intro file member
    rw [nextStart_add]
    rcases List.mem_append.mp member with old | new
    · have := inside file old
      omega
    · rw [List.mem_singleton.mp new]
      omega
  case nextStart_eq =>
    have extended : (map.add name text).extent =
        map.extent + (byteSize (map.place name text).content + padding) := by
      simp only [extent, Map.add, List.flatMap_append, List.flatMap_singleton, byteSize_append,
        List.length_append, List.length_singleton, Nat.add_mul, Nat.one_mul]
      omega
    have size : (map.place name text).span.stop =
        map.nextStart + byteSize (map.place name text).content := rfl
    rw [nextStart_add, extended]
    omega

variable {file : File} {span : Span}

/-- The files are sorted by their ends: those that end in front of a span are the ones in front of the
file in which it starts. -/
theorem IsSpaced.parted (spaced : map.IsSpaced) (member : file ∈ map.files)
    (behind : file.span.start ≤ span.start) (upTo : span.start ≤ file.span.stop) :
    ∃ before after, map.files = before ++ file :: after ∧
      (∀ other ∈ before, other.span.stop < span.start) ∧
      ∀ other ∈ file :: after, span.start ≤ other.span.stop := by
  obtain ⟨before, after, same⟩ := List.append_of_mem member
  have apart := spaced.apart
  rw [same] at apart
  obtain ⟨-, follows, leads⟩ := List.pairwise_append.mp apart
  refine ⟨before, after, same, ?_, List.forall_mem_cons.mpr ⟨upTo, ?_⟩⟩
  · intro other isBefore
    exact Nat.lt_of_lt_of_le (leads other isBefore file List.mem_cons_self) behind
  · intro other isAfter
    have starts := (List.pairwise_cons.mp follows).1 other isAfter
    have ends : other.span.start ≤ other.span.stop := Nat.le_add_right _ _
    omega

/-- A file that starts in front of a span and does not end in front of it is found for it. -/
theorem IsSpaced.file?_eq (spaced : map.IsSpaced) (member : file ∈ map.files)
    (behind : file.start ≤ span.start) (upTo : span.start ≤ file.span.stop) :
    map.file? span = some file := by
  have known : span ≠ .unknown := by
    rintro rfl
    exact absurd behind (Nat.not_le.mpr (spaced.positive file member))
  obtain ⟨before, after, same, passed, -⟩ := spaced.parted member behind upTo
  -- the files in front end before the span starts
  have skipped : before.find? (fun other => decide (span.start ≤ other.span.stop)) = none := by
    apply List.find?_eq_none.mpr
    intro other isBefore
    simpa using passed other isBefore
  rw [file?, if_neg known, same, List.find?_append, skipped, Option.none_or,
    List.find?_cons_of_pos (by simpa using upTo)]

/-- The span lies in a file of the map. -/
def Holds (map : Map) (span : Span) : Prop := ∃ file ∈ map.files, file.Holds span

theorem Holds.add (holds : map.Holds span) (name : FileName) (text : List Char) :
    (map.add name text).Holds span := by
  obtain ⟨file, member, inside⟩ := holds
  exact ⟨file, List.mem_append_left _ member, inside⟩

theorem mem_add (map : Map) (name : FileName) (text : List Char) :
    map.place name text ∈ (map.add name text).files :=
  List.mem_append_right _ (List.mem_singleton_self _)

/-- The file that a span lies in is the one that is found for it. -/
theorem IsSpaced.file?_of_holds (spaced : map.IsSpaced) (member : file ∈ map.files)
    (holds : file.Holds span) : map.file? span = some file := by
  obtain ⟨first, _, ordered⟩ := File.holds_iff.mp holds
  exact spaced.file?_eq member first.1 (Nat.le_trans ordered holds.stop_le)

/-- Within a file, no index exceeds the number of all bytes and files. -/
theorem IsSpaced.stop_le (spaced : map.IsSpaced) (member : file ∈ map.files) :
    file.span.stop ≤ byteSize (map.files.flatMap File.content) + map.files.length := by
  have inside := spaced.inside file member
  rw [spaced.nextStart_eq, extent, padding, Nat.mul_one] at inside
  exact Nat.le_of_lt_succ inside

end Cadence.Source.Map
