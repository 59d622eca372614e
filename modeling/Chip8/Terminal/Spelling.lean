import Chip8.Terminal.Input
import Chip8.Text.Number

/-!
# Keys spelled in full

A terminal can tell all about a key in the fields of a control sequence,
`code : shifted ; modifiers : kind`.  The code is that of the character on the key, or a number that
stands for a key without one; the second code is that of the character which the key gives together
with Shift.  Only the first code has to be there: what is missing or unreadable in the other places
counts as not given.
-/

namespace Chip8

namespace Spelling

/-- The parts of a text between the occurrences of a separator. -/
def parts (separator : Char) : List Char → List (List Char)
  | [] => [[]]
  | c :: cs =>
    if c = separator then [] :: parts separator cs
    else match parts separator cs with
      | [] => [[c]]
      | p :: ps => (c :: p) :: ps

/-- The part with a number, counted from zero; a part that is missing is empty. -/
def part (separator : Char) (n : Nat) (cs : List Char) : List Char :=
  (parts separator cs).getD n []

/-- A number that fits into a byte. -/
def byte? (cs : List Char) : Option Nat := Number.below? UInt8.size cs

/-- A code. -/
def code? (cs : List Char) : Option Nat := Number.below? UInt32.size cs

/-! ### Modifiers and kinds -/

/-- Which of the modifiers that matter are held. -/
structure Modifiers where
  /-- Whether Shift is held. -/
  shift : Bool
  /-- Whether Control is held. -/
  control : Bool
  deriving DecidableEq, Repr

/-- The modifiers that a number stands for: it is one more than the sum of their weights. -/
def Modifiers.ofNumber (n : Nat) : Modifiers := ⟨(n - 1).testBit 0, (n - 1).testBit 2⟩

/-- The modifiers together with the one that is on the key with a code, if one is: there is one
Shift and one Control on either side. -/
def Modifiers.withKey (m : Modifiers) (code : Nat) : Modifiers where
  shift := m.shift || code = 57441 || code = 57447
  control := m.control || code = 57442 || code = 57448

/-- What the number of a kind says. -/
def actionOf : Nat → KeyAction
  | 2 => .repeating
  | 3 => .release
  | _ => .press

/-- Modifiers and action from the field that tells them. -/
def stateOf (field : List Char) : Modifiers × KeyAction :=
  match byte? (part ':' 0 field) with
  | none => (⟨false, false⟩, .press)
  | some n => (.ofNumber n, actionOf ((byte? (part ':' 1 field)).getD 1))

/-! ### Keys -/

/-- The character with a code. -/
def char? (code : Nat) : Option Char :=
  if code.isValidChar then some (Char.ofNat code) else none

/-- The code of the zero on the number pad; the other digits follow it. -/
def padZero : Nat := 57399

/-- The key with a code. -/
def keyOf? (code : Nat) : Option KeyCode :=
  if padZero ≤ code ∧ code < padZero + 10 then
    some (.char (Char.ofNat ('0'.toNat + (code - padZero))))
  else (char? code).map KeyCode.ofChar

/-- What fields tell about a key.  A key that gives another character together with Shift is the
key of that character while Shift is held. -/
def event? (fields : List Char) : Option KeyEvent := do
  let codes := part ';' 0 fields
  let code ← code? (part ':' 0 codes)
  let key ← keyOf? code
  let (modifiers, action) := stateOf (part ';' 1 fields)
  let modifiers := modifiers.withKey code
  let shifted := if modifiers.shift then (code? (part ':' 1 codes)).bind char? else none
  return ⟨(shifted.map KeyCode.char).getD key, modifiers.control, action⟩

end Spelling

end Chip8
