import Chip8.Keypad

/-!
# Keyboard layout

Where the keys sit on the four by four keypad, and which characters of a keyboard stand for them:

```text
1 2 3 C      1 2 3 4
4 5 6 D      q w e r
7 8 9 E      a s d f
A 0 B F      z x c v
```
-/

namespace Chip8

namespace Layout

/-- The keys, row by row. -/
def keys : List (List Key) :=
  [[0x1, 0x2, 0x3, 0xC],
   [0x4, 0x5, 0x6, 0xD],
   [0x7, 0x8, 0x9, 0xE],
   [0xA, 0x0, 0xB, 0xF]]

/-- The characters at the places of `keys`. -/
def characters : List (List Char) :=
  [['1', '2', '3', '4'],
   ['q', 'w', 'e', 'r'],
   ['a', 's', 'd', 'f'],
   ['z', 'x', 'c', 'v']]

/-- The key in a row and a column, if the keypad has such a place. -/
def keyAt (row column : Nat) : Option Key :=
  keys[row]?.bind fun ks => ks[column]?

/-- Each character with the key at its place. -/
def bindings : List (Char × Key) :=
  characters.flatten.zip keys.flatten

/-- The key that a character stands for; an upper-case letter counts as its lower-case one. -/
def keyOf (c : Char) : Option Key :=
  bindings.lookup c.toLower

end Layout

end Chip8
