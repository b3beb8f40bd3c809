import Cadence.Style.Basic

/-!
# Painting

What is to be written is a list of strokes: texts, and styles that are put on and taken off like
layers. A terminal knows no layers. Taking one off clears everything and puts on the ones below
again.
-/
namespace Cadence.Style

/-- A step of painting. -/
inductive Stroke where
  | write (text : String)
  /-- Put a style on top of the others. -/
  | set (style : TextStyle)
  /-- Take off the style on top. -/
  | unset
  deriving DecidableEq, Repr

/-- The characters that the strokes produce while the given styles are on, the topmost first. -/
def paintFrom (colored : Bool) (layers : List TextStyle) : List Stroke → List Char
  | [] => []
  | .write text :: rest => text.toList ++ paintFrom colored layers rest
  | .set style :: rest =>
    if colored then style.setting ++ paintFrom colored (style :: layers) rest
    else paintFrom colored layers rest
  | .unset :: rest =>
    if colored then
      (layers.head?.map TextStyle.resetting).getD [] ++ layers.tail.reverse.flatMap TextStyle.setting ++
        paintFrom colored layers.tail rest
    else paintFrom colored layers rest

/-- The characters that the strokes produce. -/
def paint (colored : Bool) (strokes : List Stroke) : List Char := paintFrom colored [] strokes

/-- A text in a style. -/
def styled (style : TextStyle) (text : String) : List Stroke := [.set style, .write text, .unset]

end Cadence.Style
