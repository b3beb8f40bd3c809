/-!
# UTF-8

Texts as sequences of bytes. A sequence that is no text can still be shown: each longest beginning
of a character that is not finished, and each byte that starts none, is replaced by U+FFFD.
-/
namespace Cadence.Text

/-- The bytes of a text. -/
def utf8Encode (text : List Char) : List UInt8 :=
  text.flatMap String.utf8EncodeChar

/-- The character that is shown in place of bytes that are no text. -/
def replacement : Char := '\ufffd'

/-- Whether the byte continues a character. -/
def isContinuation (byte : UInt8) : Bool := 0x80 ≤ byte && byte ≤ 0xbf

/-- The six bits that a byte adds to the code point it continues. -/
def continued (bits : Nat) (byte : UInt8) : Nat := bits * 64 + byte.toNat % 64

/-- The bytes that may stand behind the first one of a character of three or four bytes. The
bounds rule out code points that have a shorter form, surrogates, and what lies behind the last
code point. -/
def isSecond (first second : UInt8) : Bool :=
  let least : UInt8 := if first = 0xe0 then 0xa0 else if first = 0xf0 then 0x90 else 0x80
  let greatest : UInt8 := if first = 0xed then 0x9f else if first = 0xf4 then 0x8f else 0xbf
  least ≤ second && second ≤ greatest

/-- The character at the start of a sequence that begins with `first`, if there is one, and the
number of bytes behind `first` that belong to it or to its unfinished beginning. -/
def decodeFirst (first : UInt8) (rest : List UInt8) : Option Char × Nat :=
  if first < 0x80 then (some (Char.ofNat first.toNat), 0)
  else if 0xc2 ≤ first && first ≤ 0xdf then
    match rest with
    | second :: _ =>
      if isContinuation second then (some (Char.ofNat (continued (first.toNat % 32) second)), 1)
      else (none, 0)
    | [] => (none, 0)
  else if 0xe0 ≤ first && first ≤ 0xef then
    match rest with
    | second :: rest =>
      if isSecond first second then
        match rest with
        | third :: _ =>
          if isContinuation third then
            (some (Char.ofNat (continued (continued (first.toNat % 16) second) third)), 2)
          else (none, 1)
        | [] => (none, 1)
      else (none, 0)
    | [] => (none, 0)
  else if 0xf0 ≤ first && first ≤ 0xf4 then
    match rest with
    | second :: rest =>
      if isSecond first second then
        match rest with
        | third :: rest =>
          if isContinuation third then
            match rest with
            | fourth :: _ =>
              if isContinuation fourth then
                (some (Char.ofNat
                  (continued (continued (continued (first.toNat % 8) second) third) fourth)), 3)
              else (none, 2)
            | [] => (none, 2)
          else (none, 1)
        | [] => (none, 1)
      else (none, 0)
    | [] => (none, 0)
  else (none, 0)

/-- The characters of a sequence of bytes. What is no character is given as nothing. -/
def utf8Units (bytes : List UInt8) : List (Option Char) :=
  match bytes with
  | [] => []
  | first :: rest =>
    let (unit, extra) := decodeFirst first rest
    unit :: utf8Units (rest.drop extra)
  termination_by bytes.length

/-- The text that has these bytes, if there is one. -/
def utf8Decode? (bytes : List UInt8) : Option (List Char) :=
  (utf8Units bytes).mapM id

/-- The bytes as they are shown. -/
def utf8Lossy (bytes : List UInt8) : List Char :=
  (utf8Units bytes).map (·.getD replacement)

end Cadence.Text
