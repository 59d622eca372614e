/-!
# Terminal input

What a terminal tells: mostly what was done to a key of its keyboard.  A key that was typed as a
single character is a press of it; a control character is a press together with Control.
-/

namespace Chip8

/-- Which key an event is about. -/
inductive KeyCode where
  /-- The key of a character. -/
  | char (c : Char)
  /-- The escape key. -/
  | escape
  /-- Any other key. -/
  | other
  deriving DecidableEq, Repr

namespace KeyCode

/-- The key that a character stands for. -/
def ofChar (c : Char) : KeyCode :=
  if c = '\x1b' then .escape
  else if c = '\r' ∨ c = '\t' ∨ c = '\x7f' then .other
  else .char c

end KeyCode

/-- What happened to a key. -/
inductive KeyAction where
  /-- It went down. -/
  | press
  /-- It is held and repeats. -/
  | repeating
  /-- It went up. -/
  | release
  deriving DecidableEq, Repr

/-- Something that happened to a key. -/
structure KeyEvent where
  /-- The key. -/
  code : KeyCode
  /-- Whether Control was held. -/
  control : Bool
  /-- What happened. -/
  action : KeyAction
  deriving DecidableEq, Repr

/-- Something that a terminal tells. -/
inductive Input where
  /-- A key did something. -/
  | key (e : KeyEvent)
  /-- The terminal answers a question about itself. -/
  | reply
  /-- Anything else: a key without a character, the mouse, pasted text, a change of size or of
  focus. -/
  | other
  deriving DecidableEq, Repr

namespace Input

/-- The press of a key without Control. -/
def pressOf (code : KeyCode) : Input := .key ⟨code, false, .press⟩

/-- The press of a character together with Control. -/
def controlOf (c : Char) : Input := .key ⟨.char c, true, .press⟩

/-- What a single character means. -/
def ofChar (c : Char) : Input :=
  if c = '\x1b' ∨ c = '\r' ∨ c = '\t' ∨ c = '\x7f' then pressOf (.ofChar c)
  else if c.toNat = 0 then controlOf ' '
  else if c.toNat ≤ 0x1A then controlOf (Char.ofNat (c.toNat - 1 + 'a'.toNat))
  else if c.toNat ≤ 0x1F then controlOf (Char.ofNat (c.toNat - 0x1C + '4'.toNat))
  else pressOf (.char c)

end Input

end Chip8
