import Chip8.Terminal.Spelling

/-!
# Control sequences

What the control sequences of a terminal mean: a key spelled in full, a reply to a question, or some
other thing that it tells, about the keys without a character or about the mouse.  What is none of
these means nothing at all, which is not the same: it does not count as an input.
-/

namespace Chip8

namespace Sequence

/-- Something else, if there is such a thing. -/
def otherIf (known : Bool) : Option Input := if known then some .other else none

/-! ### Sequences without fields -/

/-- What `ESC O` and a letter mean: an arrow, an end of the line or a function key. -/
def ofSingle? (c : Char) : Option Input :=
  otherIf (['A', 'B', 'C', 'D', 'F', 'H', 'P', 'Q', 'R', 'S'].contains c)

/-- What `ESC [ [` and a letter mean: a function key. -/
def ofDoubled? (c : Char) : Option Input := otherIf ('A' ≤ c && c ≤ 'E')

/-- What `ESC [` and a letter mean: an arrow, an end of the line, a function key, the tabulator
together with Shift, or a change of focus. -/
def ofLetter? (c : Char) : Option Input :=
  otherIf (['A', 'B', 'C', 'D', 'F', 'H', 'I', 'O', 'P', 'Q', 'S', 'Z'].contains c)

/-! ### The mouse -/

/-- Whether a number tells of a button.  Its two lowest and two highest bits are the number of the
button; bit 5 says that the mouse moves, which it does not do with all of them. -/
def isButton (n : Nat) : Bool :=
  let button := n % 4 + n / 64 * 4
  button < 6 || (button < 8 && !n.testBit 5)

/-- What the three bytes after `ESC [ M` mean, by the first of them: the others tell a place. -/
def ofMouse? (first : UInt8) : Option Input :=
  otherIf (32 ≤ first.toNat && isButton (first.toNat - 32))

/-- Whether fields tell a place from the one with number `n` on: two numbers of 16 bits. -/
def tellsPlace (n : Nat) (fields : List Char) : Bool :=
  (Number.below? UInt16.size (Spelling.part ';' n fields)).isSome &&
    (Number.below? UInt16.size (Spelling.part ';' (n + 1) fields)).isSome

/-- What fields about the mouse mean: a button, whose numbers begin at `base`, and a place. -/
def ofPointer? (base : Nat) (fields : List Char) : Option Input :=
  match Spelling.byte? (Spelling.part ';' 0 fields) with
  | none => none
  | some n => otherIf (base ≤ n && isButton (n - base) && tellsPlace 1 fields)

/-! ### Keys without a character -/

/-- Whether a number stands for a key without a character. -/
def isKeyNumber (n : Nat) : Bool :=
  (1 ≤ n && n ≤ 8) || (11 ≤ n && n ≤ 34 && !([16, 22, 27, 30].contains n))

/-- What fields that begin with the number of a key mean. -/
def ofKeyNumber? (fields : List Char) : Option Input :=
  otherIf ((Spelling.byte? (Spelling.part ';' 0 fields)).any isKeyNumber)

/-- What fields with the letter of a key mean.  Its modifiers are in the second field, or else are
the last digit before the letter. -/
def ofKeyLetter? (fields : List Char) (letter : Char) : Option Input :=
  otherIf (['A', 'B', 'C', 'D', 'F', 'H', 'P', 'Q', 'S'].contains letter &&
    ((Spelling.byte? (Spelling.part ':' 0 (Spelling.part ';' 1 fields))).isSome ||
      fields.getLast?.any Char.isDigit))

/-! ### Sequences with fields -/

/-- What fields mean that a final character ends. -/
def ofFields? (fields : List Char) (final : Char) : Option Input :=
  if final = 'u' then (Spelling.event? fields).map Input.key
  else if final = 'R' then if tellsPlace 0 fields then some .reply else none
  else if final = 'M' then ofPointer? 32 fields
  else if final = '~' then ofKeyNumber? fields
  else ofKeyLetter? fields final

end Sequence

end Chip8
