/-!
# Plain text

Text may hold characters that steer a terminal instead of showing up on it: control characters, and
sequences that an escape character begins.  Plain text is what is left without them.

A sequence is of one of these kinds.

* A short one ends with the first ASCII character from `0` on.
* After `ESC [` it ends with the first ASCII character from `@` on.
* After `ESC ]` it is a command, which a bell ends.
* After `ESC X`, `ESC ^` and `ESC _` it is a string, which a terminator ends.
* After `ESC P` it is a string as well, but before it there is a head: digits and semicolons, and
  marks from the space to `/`, up to an ASCII character that is neither.

The next escape character ends a sequence of any kind and begins another.  The terminator of a
string is the byte `9C`, also as part of another character.
-/

namespace Chip8

namespace Plain

/-- Where a reader of text stands. -/
inductive Mode where
  /-- Outside of all sequences. -/
  | text
  /-- After an escape character. -/
  | escape
  /-- In a short sequence. -/
  | short
  /-- In a sequence after `ESC [`. -/
  | control
  /-- In a command. -/
  | command
  /-- Right before the head of a string. -/
  | head
  /-- Among the digits of a head. -/
  | digits
  /-- Among the marks of a head. -/
  | marks
  /-- In a string. -/
  | string
  deriving DecidableEq, Repr

/-- Whether a character leaves a blank, or begins a line or a page. -/
def isBlank (c : Char) : Bool :=
  c = ' ' || c = '\t' || c = '\n' || c = '\x0c' || c = '\r'

/-- Whether a control character, other than one that is blank. -/
def isSilent (c : Char) : Bool :=
  (c.toNat < 0x20 || c = '\x7f') && !isBlank c

/-- Whether a visible ASCII character or a space. -/
def isVisible (c : Char) : Bool := 0x20 ≤ c.toNat && c.toNat < 0x7F

/-- Whether a mark in front of the last character of a sequence. -/
def isMark (c : Char) : Bool := 0x20 ≤ c.toNat && c.toNat < 0x30

/-- Whether a character belongs to the digits of a head. -/
def isHeadDigit (c : Char) : Bool := c.isDigit || c = ';'

/-- Whether a character terminates a string. -/
def terminates (c : Char) : Bool := (String.utf8EncodeChar c).contains 0x9C

/-- Where a visible character leads from within a sequence. -/
def Mode.follow : Mode → Char → Mode
  | .escape, c =>
    if isMark c then .short
    else if c = '[' then .control
    else if c = ']' then .command
    else if c = 'P' then .head
    else if c = 'X' ∨ c = '^' ∨ c = '_' then .string
    else .text
  | .short, c => if isMark c then .short else .text
  | .control, c => if c.toNat < 0x40 then .control else .text
  | .head, c =>
    if isMark c then .marks
    else if c ≠ ':' ∧ c.toNat < 0x40 then .digits
    else .string
  | .digits, c =>
    if isMark c then .marks
    else if isHeadDigit c then .digits
    else .string
  | .marks, c => if isMark c then .marks else .string
  | m, _ => m

/-- Whether the reader keeps a character other than those that end a sequence of any kind, and where
it stands then.  A line break breaks off a sequence that is neither a command nor a string, and is
kept. -/
def Mode.meet (m : Mode) (c : Char) : Bool × Mode :=
  match m with
  | .text => (!isSilent c, .text)
  | .command => (false, if c = '\x07' then .text else .command)
  | .string => (false, if terminates c then .text else .string)
  | .head | .digits | .marks => (false, if isVisible c then m.follow c else m)
  | .escape | .short | .control =>
    if isVisible c then (false, m.follow c)
    else if isBlank c then (true, .text)
    else (false, m)

/-- Whether the reader keeps a character, and where it stands then.  The escape character begins a
sequence wherever it stands, and two control characters cancel one. -/
def Mode.next (m : Mode) (c : Char) : Bool × Mode :=
  if c = '\x1b' then (false, .escape)
  else if c = '\x18' ∨ c = '\x1a' then (false, .text)
  else m.meet c

/-- The characters that a reader keeps. -/
def kept : Mode → List Char → List Char
  | _, [] => []
  | m, c :: cs =>
    let (keeps, m) := m.next c
    if keeps then c :: kept m cs else kept m cs

/-- The plain text in a text. -/
def ofText (s : String) : String := String.ofList (kept .text s.toList)

end Plain

end Chip8
