/-!
# Styles of written text

A style makes text bold, italic or underlined and may give it a color. A terminal is told to use a
style by escape sequences.
-/
namespace Cadence.Style

/-- The colors of a terminal, each in a normal and a bright shade. -/
inductive Hue where
  | black
  | red
  | green
  | yellow
  | blue
  | magenta
  | cyan
  | white
  deriving DecidableEq, Repr

structure Color where
  hue : Hue
  bright : Bool
  deriving DecidableEq, Repr

namespace Hue

def all : List Hue := [black, red, green, yellow, blue, magenta, cyan, white]

def name : Hue → String
  | black => "Black"
  | red => "Red"
  | green => "Green"
  | yellow => "Yellow"
  | blue => "Blue"
  | magenta => "Magenta"
  | cyan => "Cyan"
  | white => "White"

def digit : Hue → Char
  | black => '0'
  | red => '1'
  | green => '2'
  | yellow => '3'
  | blue => '4'
  | magenta => '5'
  | cyan => '6'
  | white => '7'

end Hue

namespace Color

def all : List Color := Hue.all.flatMap fun hue => [⟨hue, false⟩, ⟨hue, true⟩]

def name (color : Color) : String :=
  if color.bright then "Bright" ++ color.hue.name else color.hue.name

def ofName? (name : String) : Option Color := all.find? fun color => color.name = name

end Color

/-- How text is written. The plain style asks for nothing. -/
structure TextStyle where
  bold : Bool := false
  italic : Bool := false
  underline : Bool := false
  color : Option Color := none
  deriving DecidableEq, Repr

/-- Whether to use styles: as the receiver of the text can show them, never, or always. -/
inductive ColorChoice where
  | auto
  | never
  | always
  deriving DecidableEq, Repr

namespace ColorChoice

def all : List ColorChoice := [auto, never, always]

def name : ColorChoice → String
  | auto => "auto"
  | never => "never"
  | always => "always"

def ofName? (name : String) : Option ColorChoice := all.find? fun choice => choice.name = name

/-- Texts that are kept, and streams that lead to no terminal, show no styles by themselves. -/
def isColored : ColorChoice → Bool
  | always => true
  | auto | never => false

end ColorChoice

/-- The character that starts an escape sequence. -/
def escape : Char := '\x1b'

/-- The escape sequence with the given parameter. -/
def sequence (parameter : List Char) : List Char := escape :: '[' :: parameter ++ ['m']

/-- The sequence that takes back every style. -/
def clear : List Char := sequence ['0']

namespace Color

def sequence (color : Color) : List Char :=
  Style.sequence [if color.bright then '9' else '3', color.hue.digit]

end Color

namespace TextStyle

def plain : TextStyle := {}

def ofColor (color : Color) : TextStyle := { color := some color }

def boldColor (color : Color) : TextStyle := { bold := true, color := some color }

def onlyBold : TextStyle := { bold := true }

def onlyItalic : TextStyle := { italic := true }

def onlyUnderline : TextStyle := { underline := true }

/-- The sequences that put the style into force: first the effects, then the color. -/
def setting (style : TextStyle) : List Char :=
  (if style.bold then sequence ['1'] else []) ++
  (if style.italic then sequence ['3'] else []) ++
  (if style.underline then sequence ['4'] else []) ++
  (style.color.map Color.sequence).getD []

/-- The sequence that takes the style back. The plain style needs none. -/
def resetting (style : TextStyle) : List Char := if style = plain then [] else clear

end TextStyle

end Cadence.Style
