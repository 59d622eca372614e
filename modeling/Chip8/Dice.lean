/-!
# Random bytes

A source of random bytes is an endless sequence together with the number of bytes already drawn
from it, so that the bytes a program gets are part of its input.
-/

namespace Chip8

/-- A source of random bytes. -/
structure Dice where
  /-- The byte that the draw with a given number yields, counted from zero. -/
  face : Nat → UInt8
  /-- How many bytes have been drawn. -/
  drawn : Nat

namespace Dice

/-- The byte that the next draw yields. -/
def top (d : Dice) : UInt8 := d.face d.drawn

/-- The source after one draw. -/
def next (d : Dice) : Dice := { d with drawn := d.drawn + 1 }

/-- A fresh source over a sequence. -/
def ofFaces (face : Nat → UInt8) : Dice := ⟨face, 0⟩

/-- A fresh source that repeats a list of bytes for ever, and yields zeros if it is empty. -/
def repeating (bytes : Array UInt8) : Dice :=
  ofFaces fun n => bytes.getD (n % bytes.size) 0

end Dice

end Chip8
