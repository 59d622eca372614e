import Chip8.Frame

/-!
# The picture as text

Two rows of pixels share one line of text, so that a picture takes 64 columns and 16 lines.  A line
is written after moving the cursor to its first column.
-/

namespace Chip8

namespace Picture

/-- The character of a cell with a pixel in its upper and one in its lower half. -/
def glyph (upper lower : Bool) : Char :=
  match upper, lower with
  | true, true => '█'
  | true, false => '▀'
  | false, true => '▄'
  | false, false => ' '

/-- Lines of text. -/
def lines : Nat := 16

/-- The characters of a line, counted from zero. -/
def line (f : Frame) (k : Nat) : List Char :=
  (List.range Frame.width).map fun x => glyph (f.pixel x (2 * k)) (f.pixel x (2 * k + 1))

/-- Move the cursor to the start of a line, counted from zero. -/
def moveTo (k : Nat) : String := "\x1b[" ++ toString (k + 1) ++ ";1H"

/-- All that shows a picture: for each line the cursor move and its characters. -/
def text (f : Frame) : String :=
  String.join ((List.range lines).map fun k => moveTo k ++ String.ofList (line f k))

end Picture

end Chip8
