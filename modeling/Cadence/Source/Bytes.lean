/-!
# Byte indices into a text

A text is a list of characters, each of which takes one to four bytes in UTF-8. Positions in source
code are counted in bytes. Cutting a text at a byte index is possible only between two characters.
-/
namespace Cadence.Source

/-- The number of bytes of a text. -/
def byteSize : List Char → Nat
  | [] => 0
  | character :: rest => character.utf8Size + byteSize rest

@[simp]
theorem byteSize_nil : byteSize [] = 0 := rfl

@[simp]
theorem byteSize_cons (character : Char) (rest : List Char) :
    byteSize (character :: rest) = character.utf8Size + byteSize rest := rfl

@[simp]
theorem byteSize_append (left right : List Char) :
    byteSize (left ++ right) = byteSize left + byteSize right := by
  induction left with
  | nil => simp
  | cons character rest ih => simp [ih, Nat.add_assoc]

theorem byteSize_pos {text : List Char} (present : text ≠ []) : 0 < byteSize text := by
  cases text with
  | nil => contradiction
  | cons character rest =>
    have := character.utf8Size_pos
    simp
    omega

/-- The two parts of a text before and behind a byte index, if it lies between two characters. -/
def splitAtByte? : Nat → List Char → Option (List Char × List Char)
  | 0, text => some ([], text)
  | _ + 1, [] => none
  | index + 1, character :: rest =>
    if character.utf8Size ≤ index + 1 then
      (splitAtByte? (index + 1 - character.utf8Size) rest).map fun parts =>
        (character :: parts.1, parts.2)
    else none

@[simp]
theorem splitAtByte?_zero (text : List Char) : splitAtByte? 0 text = some ([], text) := by
  cases text <;> rfl

theorem splitAtByte?_cons {index : Nat} {character : Char} (fits : character.utf8Size ≤ index)
    (rest : List Char) :
    splitAtByte? index (character :: rest) =
      (splitAtByte? (index - character.utf8Size) rest).map fun parts =>
        (character :: parts.1, parts.2) := by
  have positive := character.utf8Size_pos
  cases index with
  | zero => omega
  | succ index => rw [splitAtByte?, if_pos fits]

/-- A text can be cut behind each of its first parts. -/
theorem splitAtByte?_append (before behind : List Char) :
    splitAtByte? (byteSize before) (before ++ behind) = some (before, behind) := by
  induction before with
  | nil => exact splitAtByte?_zero behind
  | cons character rest ih =>
    rw [List.cons_append, byteSize_cons, splitAtByte?_cons (Nat.le_add_right _ _),
      Nat.add_sub_cancel_left, ih]
    rfl

/-- The parts that a text is cut into make up the text. -/
theorem eq_of_splitAtByte? {index : Nat} {text before behind : List Char}
    (found : splitAtByte? index text = some (before, behind)) :
    text = before ++ behind ∧ byteSize before = index := by
  -- the induction follows the function, which takes one character after the other
  fun_induction splitAtByte? index text generalizing before behind with
  | case1 text =>
    cases found
    exact ⟨rfl, rfl⟩
  | case2 => cases found
  | case3 index character rest fits ih =>
    obtain ⟨⟨front, others⟩, inRest, same⟩ := Option.map_eq_some_iff.mp found
    cases same
    obtain ⟨rfl, size⟩ := ih inRest
    refine ⟨rfl, ?_⟩
    rw [byteSize_cons, size]
    omega
  | case4 => cases found

theorem splitAtByte?_eq_some_iff {index : Nat} {text before behind : List Char} :
    splitAtByte? index text = some (before, behind) ↔
      text = before ++ behind ∧ byteSize before = index := by
  constructor
  · exact eq_of_splitAtByte?
  · rintro ⟨rfl, rfl⟩
    exact splitAtByte?_append before behind

/-- The part of a text between two byte indices, if both lie between two characters. -/
def slice? (text : List Char) (start stop : Nat) : Option (List Char) := do
  if start ≤ stop then
    let (_, behind) ← splitAtByte? start text
    let (part, _) ← splitAtByte? (stop - start) behind
    return part
  else none

theorem slice?_eq_some_iff {text part : List Char} {start stop : Nat} :
    slice? text start stop = some part ↔
      ∃ before behind, text = before ++ part ++ behind ∧ byteSize before = start ∧
        start + byteSize part = stop := by
  unfold slice?
  constructor
  · intro found
    split at found
    next ordered =>
      simp only [Option.bind_eq_bind, Option.bind_eq_some_iff, Prod.exists] at found
      obtain ⟨before, rest, first, part', behind, second, equal⟩ := found
      obtain ⟨rfl, size⟩ := splitAtByte?_eq_some_iff.mp first
      obtain ⟨rfl, size'⟩ := splitAtByte?_eq_some_iff.mp second
      obtain rfl : part' = part := by simpa using equal
      exact ⟨before, behind, by simp, size, by omega⟩
    next => simp at found
  · rintro ⟨before, behind, rfl, rfl, rfl⟩
    have first : splitAtByte? (byteSize before) (before ++ part ++ behind) =
        some (before, part ++ behind) := splitAtByte?_eq_some_iff.mpr ⟨by simp, rfl⟩
    have second : splitAtByte? (byteSize part) (part ++ behind) = some (part, behind) :=
      splitAtByte?_eq_some_iff.mpr ⟨rfl, rfl⟩
    rw [if_pos (Nat.le_add_right _ _), first, Nat.add_sub_cancel_left]
    simp [second]

end Cadence.Source
