import Cadence.Style.Paint

/-!
# What a terminal shows

A terminal receives characters one after the other. An escape sequence clears the style that is in
force, adds an effect to it or replaces its color, and every other character is shown in the style
that is in force. It has no layers to go back to: painting takes one off by a sequence that clears
all of them and by putting on again those below. That this comes to the same follows from how styles
lie on top of each other: to put some layers on a second time changes nothing.
-/
namespace Cadence.Style

/-- The hue that a digit stands for in an escape sequence. -/
def Hue.ofDigit? : Char → Option Hue
  | '0' => some black
  | '1' => some red
  | '2' => some green
  | '3' => some yellow
  | '4' => some blue
  | '5' => some magenta
  | '6' => some cyan
  | '7' => some white
  | _ => none

theorem Hue.ofDigit?_digit (hue : Hue) : ofDigit? hue.digit = some hue := by
  cases hue <;> rfl

theorem Hue.digit_ne_end (hue : Hue) : hue.digit ≠ 'm' := by
  cases hue <;> decide

namespace TextStyle

/-- A style on top of another one: the effects of both, and the upper color if there is one. -/
def onto (upper lower : TextStyle) : TextStyle where
  bold := upper.bold || lower.bold
  italic := upper.italic || lower.italic
  underline := upper.underline || lower.underline
  color := upper.color <|> lower.color

@[simp]
theorem onto_plain (style : TextStyle) : style.onto plain = style := by
  simp [onto, plain]

@[simp]
theorem plain_onto (style : TextStyle) : plain.onto style = style := by
  simp [onto, plain]

@[simp]
theorem onto_self (style : TextStyle) : style.onto style = style := by
  simp [onto]

theorem onto_assoc (first second third : TextStyle) :
    (first.onto second).onto third = first.onto (second.onto third) := by
  simp [onto, Bool.or_assoc, Option.or_assoc]

/-- The style of several layers, the topmost first: they are put on from the bottom to the top. -/
def ofLayers (layers : List TextStyle) : TextStyle := layers.foldr onto plain

@[simp]
theorem ofLayers_nil : ofLayers [] = plain := rfl

@[simp]
theorem ofLayers_cons (style : TextStyle) (layers : List TextStyle) :
    ofLayers (style :: layers) = style.onto (ofLayers layers) := rfl

/-- Layers that are put on a style lie on top of it as one. -/
theorem foldr_onto (layers : List TextStyle) (style : TextStyle) :
    layers.foldr onto style = (ofLayers layers).onto style := by
  induction layers with
  | nil => rw [ofLayers_nil, plain_onto, List.foldr_nil]
  | cons top below ih => rw [List.foldr_cons, ih, ofLayers_cons, onto_assoc]

/-- The style behind a complete escape sequence, of which the characters between its first and its
last one are given. -/
def obey (style : TextStyle) : List Char → TextStyle
  | ['[', '0'] => plain
  | ['[', '1'] => { style with bold := true }
  | ['[', '3'] => { style with italic := true }
  | ['[', '4'] => { style with underline := true }
  | ['[', '3', digit] => colored false digit
  | ['[', '9', digit] => colored true digit
  | _ => style
where
  colored (bright : Bool) (digit : Char) : TextStyle :=
    match Hue.ofDigit? digit with
    | some hue => { style with color := some ⟨hue, bright⟩ }
    | none => style

theorem obey_color (style : TextStyle) (color : Color) :
    style.obey ['[', if color.bright then '9' else '3', color.hue.digit] =
      { style with color := some color } := by
  obtain ⟨hue, bright⟩ := color
  cases bright <;> simp [obey, obey.colored, Hue.ofDigit?_digit]

end TextStyle

/-- A terminal. -/
structure Screen where
  /-- The characters that are shown, each in its style. -/
  cells : List (Char × TextStyle) := []
  /-- The style that is in force. -/
  style : TextStyle := .plain
  /-- What was received of an escape sequence behind its first character, while one is going on. -/
  pending : Option (List Char) := none
  deriving DecidableEq, Repr

namespace Screen

/-- Receive a character. An escape sequence ends with the letter `m`. -/
def receive (screen : Screen) (character : Char) : Screen :=
  match screen.pending with
  | none =>
    if character = escape then { screen with pending := some [] }
    else { screen with cells := screen.cells ++ [(character, screen.style)] }
  | some received =>
    if character = 'm' then { screen with style := screen.style.obey received, pending := none }
    else { screen with pending := some (received ++ [character]) }

/-- Receive a text. -/
def receiveAll (screen : Screen) (text : List Char) : Screen := text.foldl receive screen

/-- What a terminal shows of a text that it is the first to receive. -/
def ofText (text : List Char) : Screen := receiveAll {} text

variable (screen : Screen)

@[simp]
theorem receiveAll_nil : screen.receiveAll [] = screen := rfl

@[simp]
theorem receiveAll_cons (character : Char) (rest : List Char) :
    screen.receiveAll (character :: rest) = (screen.receive character).receiveAll rest := rfl

@[simp]
theorem receiveAll_append (first second : List Char) :
    screen.receiveAll (first ++ second) = (screen.receiveAll first).receiveAll second :=
  List.foldl_append

variable {cells : List (Char × TextStyle)} {style : TextStyle}

/-- A text without escape characters is shown in the style that is in force. -/
theorem receiveAll_text {text : List Char} (free : escape ∉ text) :
    receiveAll ⟨cells, style, none⟩ text = ⟨cells ++ text.map (·, style), style, none⟩ := by
  induction text generalizing cells with
  | nil => simp
  | cons character rest ih =>
    obtain ⟨other, later⟩ := not_or.mp (mt List.mem_cons.mpr free)
    have shown : receive ⟨cells, style, none⟩ character = ⟨cells ++ [(character, style)], style, none⟩ :=
      if_neg (Ne.symm other)
    rw [receiveAll_cons, shown, ih later, List.map_cons, List.append_assoc, List.singleton_append]

theorem receiveAll_parameter {parameter received : List Char} (goesOn : 'm' ∉ parameter) :
    receiveAll ⟨cells, style, some received⟩ parameter = ⟨cells, style, some (received ++ parameter)⟩ := by
  induction parameter generalizing received with
  | nil => simp
  | cons character rest ih =>
    obtain ⟨other, later⟩ := not_or.mp (mt List.mem_cons.mpr goesOn)
    have kept : receive ⟨cells, style, some received⟩ character =
        ⟨cells, style, some (received ++ [character])⟩ := if_neg (Ne.symm other)
    rw [receiveAll_cons, kept, ih later, List.append_assoc, List.singleton_append]

/-- A sequence is obeyed and not shown. -/
theorem receiveAll_sequence {parameter : List Char} (goesOn : 'm' ∉ parameter) :
    receiveAll ⟨cells, style, none⟩ (sequence parameter) =
      ⟨cells, style.obey ('[' :: parameter), none⟩ := by
  have starts : receive ⟨cells, style, none⟩ escape = ⟨cells, style, some []⟩ := by simp [receive]
  have inside : 'm' ∉ '[' :: parameter := by simpa using goesOn
  have split : sequence parameter = escape :: (('[' :: parameter) ++ ['m']) := rfl
  rw [split, receiveAll_cons, starts, receiveAll_append, receiveAll_parameter inside]
  rfl

theorem receiveAll_clear :
    receiveAll ⟨cells, style, none⟩ clear = ⟨cells, .plain, none⟩ :=
  receiveAll_sequence (by decide)

/-- A style is put on top of the one in force. -/
theorem receiveAll_setting (upper : TextStyle) :
    receiveAll ⟨cells, style, none⟩ upper.setting = ⟨cells, upper.onto style, none⟩ := by
  have effect (on : Bool) (digit : Char) (other : 'm' ≠ digit) (lower : TextStyle) :
      receiveAll ⟨cells, lower, none⟩ (if on then sequence [digit] else []) =
        ⟨cells, if on then lower.obey ['[', digit] else lower, none⟩ := by
    cases on
    · rfl
    · exact receiveAll_sequence (by simpa using other)
  have colored (color : Option Color) (lower : TextStyle) :
      receiveAll ⟨cells, lower, none⟩ ((color.map Color.sequence).getD []) =
        ⟨cells, { lower with color := color <|> lower.color }, none⟩ := by
    cases color with
    | none => rfl
    | some color =>
      have goesOn : 'm' ∉ [if color.bright then '9' else '3', color.hue.digit] := by
        cases color.bright <;> simp [color.hue.digit_ne_end.symm]
      rw [Option.map_some, Option.getD_some, Color.sequence, receiveAll_sequence goesOn,
        TextStyle.obey_color]
      rfl
  rw [TextStyle.setting, receiveAll_append, receiveAll_append, receiveAll_append,
    effect _ _ (by decide), effect _ _ (by decide), effect _ _ (by decide), colored]
  obtain ⟨bold, italic, underline, color⟩ := upper
  cases bold <;> cases italic <;> cases underline <;> simp [TextStyle.onto, TextStyle.obey]

/-- Layers are put on from the bottom to the top. -/
theorem receiveAll_layers (layers : List TextStyle) :
    receiveAll ⟨cells, style, none⟩ (layers.reverse.flatMap TextStyle.setting) =
      ⟨cells, (TextStyle.ofLayers layers).onto style, none⟩ := by
  rw [← TextStyle.foldr_onto]
  induction layers with
  | nil => rfl
  | cons top below ih =>
    rw [List.reverse_cons, List.flatMap_append, receiveAll_append, ih, List.flatMap_singleton,
      receiveAll_setting, List.foldr_cons]

/-- Taking off the top layer leaves the ones below in force. A plain layer is not cleared, and the
layers below it are put on a second time. -/
theorem receiveAll_unset (layers : List TextStyle) :
    receiveAll ⟨cells, .ofLayers layers, none⟩
        ((layers.head?.map TextStyle.resetting).getD [] ++
          layers.tail.reverse.flatMap TextStyle.setting) =
      ⟨cells, .ofLayers layers.tail, none⟩ := by
  cases layers with
  | nil => rfl
  | cons top below =>
    rw [receiveAll_append, List.head?_cons, Option.map_some, Option.getD_some, List.tail_cons,
      TextStyle.resetting]
    split
    next isPlain =>
      rw [isPlain, TextStyle.ofLayers_cons, TextStyle.plain_onto, receiveAll_nil, receiveAll_layers,
        TextStyle.onto_self]
    next => rw [receiveAll_clear, receiveAll_layers, TextStyle.onto_plain]

end Screen

/-! ## Strokes -/

/-- The characters that are written. -/
def written : List Stroke → List Char
  | [] => []
  | .write text :: rest => text.toList ++ written rest
  | .set _ :: rest | .unset :: rest => written rest

/-- The layers that are on in the end. -/
def layersBehind (layers : List TextStyle) : List Stroke → List TextStyle
  | [] => layers
  | .write _ :: rest => layersBehind layers rest
  | .set style :: rest => layersBehind (style :: layers) rest
  | .unset :: rest => layersBehind layers.tail rest

/-- The characters that are written, each in the style of the layers that are on. -/
def inked (layers : List TextStyle) : List Stroke → List (Char × TextStyle)
  | [] => []
  | .write text :: rest => text.toList.map (·, .ofLayers layers) ++ inked layers rest
  | .set style :: rest => inked (style :: layers) rest
  | .unset :: rest => inked layers.tail rest

@[simp]
theorem written_nil : written [] = [] := rfl

@[simp]
theorem written_write (text : String) (rest : List Stroke) :
    written (.write text :: rest) = text.toList ++ written rest := rfl

@[simp]
theorem written_set (style : TextStyle) (rest : List Stroke) :
    written (.set style :: rest) = written rest := rfl

@[simp]
theorem written_unset (rest : List Stroke) : written (.unset :: rest) = written rest := rfl

@[simp]
theorem written_append (first second : List Stroke) :
    written (first ++ second) = written first ++ written second := by
  induction first with
  | nil => rfl
  | cons stroke rest ih => cases stroke <;> simp [ih]

@[simp]
theorem written_styled (style : TextStyle) (text : String) :
    written (styled style text) = text.toList := by
  simp [styled]

theorem map_fst_inked (layers : List TextStyle) (strokes : List Stroke) :
    (inked layers strokes).map Prod.fst = written strokes := by
  fun_induction inked layers strokes with
  | case1 => rfl
  | case2 layers text rest ih => simp [ih, Function.comp_def]
  | case3 layers style rest ih => exact ih
  | case4 layers rest ih => exact ih

@[simp]
theorem layersBehind_append (layers : List TextStyle) (first second : List Stroke) :
    layersBehind layers (first ++ second) = layersBehind (layersBehind layers first) second := by
  induction first generalizing layers with
  | nil => rfl
  | cons stroke rest ih => cases stroke <;> exact ih _

/-- The strokes take off what they put on, and write no escape characters. -/
structure AreTidy (strokes : List Stroke) : Prop where
  layersBehind_eq : ∀ layers, layersBehind layers strokes = layers
  free : escape ∉ written strokes

namespace AreTidy

variable {first second : List Stroke} {text : String}

theorem nil : AreTidy [] := ⟨fun _ => rfl, List.not_mem_nil⟩

theorem append (one : AreTidy first) (other : AreTidy second) : AreTidy (first ++ second) where
  layersBehind_eq layers := by rw [layersBehind_append, one.layersBehind_eq, other.layersBehind_eq]
  free := by
    rw [written_append, List.mem_append, not_or]
    exact ⟨one.free, other.free⟩

theorem write (free : escape ∉ text.toList) : AreTidy [.write text] := ⟨fun _ => rfl, by simpa using free⟩

/-- Strokes under a style that is put on in front of them and taken off behind them. -/
theorem within (inner : AreTidy first) (style : TextStyle) :
    AreTidy ([.set style] ++ first ++ [.unset]) where
  layersBehind_eq layers := by
    rw [layersBehind_append, layersBehind_append, inner.layersBehind_eq]
    rfl
  free := by simpa using inner.free

theorem styled (free : escape ∉ text.toList) (style : TextStyle) : AreTidy (styled style text) :=
  (write free).within style

theorem flatMap {α : Type} {items : List α} {strokes : α → List Stroke}
    (each : ∀ item ∈ items, AreTidy (strokes item)) : AreTidy (items.flatMap strokes) := by
  induction items with
  | nil => exact nil
  | cons item rest ih =>
    obtain ⟨own, others⟩ := List.forall_mem_cons.mp each
    exact own.append (ih others)

end AreTidy

/-- Without colors only the characters are left. -/
theorem paintFrom_uncolored (layers : List TextStyle) (strokes : List Stroke) :
    paintFrom false layers strokes = written strokes := by
  induction strokes with
  | nil => rfl
  | cons stroke rest ih => cases stroke <;> simp [paintFrom, ih]

/-- A terminal that shows the layers so far goes on to show those of the strokes. -/
theorem Screen.receiveAll_paintFrom (layers : List TextStyle) (strokes : List Stroke)
    (cells : List (Char × TextStyle)) (free : escape ∉ written strokes) :
    receiveAll ⟨cells, .ofLayers layers, none⟩ (paintFrom true layers strokes) =
      ⟨cells ++ inked layers strokes, .ofLayers (layersBehind layers strokes), none⟩ := by
  induction strokes generalizing layers cells with
  | nil => simp [paintFrom, inked, layersBehind]
  | cons stroke rest ih =>
    cases stroke with
    | write text =>
      obtain ⟨here, later⟩ := not_or.mp (mt List.mem_append.mpr free)
      rw [paintFrom, receiveAll_append, receiveAll_text here, ih _ _ later, inked, layersBehind,
        List.append_assoc]
    | set style =>
      rw [paintFrom, if_pos rfl, receiveAll_append, receiveAll_setting, ← TextStyle.ofLayers_cons,
        ih _ _ free, inked, layersBehind]
    | unset =>
      rw [paintFrom, if_pos rfl, receiveAll_append, receiveAll_unset, ih _ _ free, inked, layersBehind]

/-! ## Escape sequences that are left out -/

/-- A text without its escape sequences, within one of which it may start. -/
def withoutSequencesFrom (inside : Bool) : List Char → List Char
  | [] => []
  | character :: rest =>
    if inside then withoutSequencesFrom (character ≠ 'm') rest
    else if character = escape then withoutSequencesFrom true rest
    else character :: withoutSequencesFrom false rest

/-- A text without its escape sequences, each of which goes up to the next letter `m`. -/
def withoutSequences (text : List Char) : List Char := withoutSequencesFrom false text

/-- What is left without the escape sequences is what a terminal shows. -/
theorem Screen.map_fst_cells_receiveAll (screen : Screen) (text : List Char) :
    (screen.receiveAll text).cells.map Prod.fst =
      screen.cells.map Prod.fst ++ withoutSequencesFrom screen.pending.isSome text := by
  induction text generalizing screen with
  | nil => simp [withoutSequencesFrom]
  | cons character rest ih =>
    obtain ⟨cells, style, pending⟩ := screen
    rw [receiveAll_cons, ih, withoutSequencesFrom]
    cases pending with
    | none => by_cases starts : character = escape <;> simp [receive, starts]
    | some received => by_cases ends : character = 'm' <;> simp [receive, ends]

/-- Painted strokes without the escape sequences are what is painted without colors. -/
theorem withoutSequences_paint {strokes : List Stroke} (free : escape ∉ written strokes) :
    withoutSequences (paint true strokes) = paint false strokes := by
  have shown := Screen.map_fst_cells_receiveAll {} (paint true strokes)
  have layered := Screen.receiveAll_paintFrom [] strokes [] free
  have plain : paint false strokes = written strokes := paintFrom_uncolored [] strokes
  rw [plain, ← map_fst_inked [] strokes]
  rw [paint, ← TextStyle.ofLayers_nil, layered] at shown
  exact shown.symm

end Cadence.Style
