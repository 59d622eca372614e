import Chip8.Terminal.Sequence

/-!
# Reading what a terminal sends

A terminal sends the bytes of characters.  Most characters stand for themselves; an escape character
before one adds Alt, and before some it begins a sequence, of which the reader has to find the end:

* after `ESC O`, and after `ESC [ [`, one byte;
* after `ESC [ M`, three bytes about the mouse;
* after `ESC [ <`, fields about the mouse up to an `m` or `M`;
* after `ESC [ ?`, a reply, which ends with `u` or `c`;
* after `ESC [` and a digit, fields up to a byte from `@` to `~`, which says what they mean;
* after `ESC [ 200 ~`, pasted text up to `ESC [ 201 ~`;
* after `ESC [` and any other byte, nothing.
-/

namespace Chip8

/-- Where a reader of bytes stands. -/
inductive Reading where
  /-- Between two inputs. -/
  | start
  /-- In a character of which `due` bytes are missing, after the bytes read of it, last first. -/
  | character (due : Nat) (bytes : List UInt8)
  /-- After an escape character. -/
  | escape
  /-- After `ESC O`. -/
  | single
  /-- After `ESC [`. -/
  | sequence
  /-- After `ESC [ [`. -/
  | doubled
  /-- After `ESC [ M` and the bytes about the mouse, last first. -/
  | mouse (bytes : List UInt8)
  /-- After `ESC [ <` and the characters read of the fields, last first. -/
  | pointer (cs : List Char)
  /-- In a reply, which may still be empty. -/
  | reply (empty : Bool)
  /-- In a sequence of fields, after the characters read of them, last first. -/
  | fields (cs : List Char)
  /-- In pasted text, before the characters that are missing of its end. -/
  | paste (missing : List Char)
  deriving DecidableEq, Repr

namespace Reading

/-! ### Characters -/

/-- How many bytes follow the first byte of a character. -/
def followers (first : UInt8) : Nat :=
  if first < 0xC0 then 0
  else if first < 0xE0 then 1
  else if first < 0xF0 then 2
  else if first < 0xF8 then 3
  else 0

/-- Whether a byte is one of those that follow. -/
def follows (b : UInt8) : Bool := 0x80 ≤ b && b < 0xC0

/-- The press of the character with given bytes, if there is one. -/
def ofBytes? (bytes : List UInt8) : Option Input :=
  ((ByteArray.mk bytes.toArray).utf8DecodeChar? 0).map .ofChar

/-- Begin a character: an ASCII character is complete with its one byte, and a byte that begins no
character means nothing. -/
def begun (b : UInt8) : Option Input × Reading :=
  if b < 0x80 then (some (.ofChar (Char.ofUInt8 b)), .start)
  else if followers b = 0 then (none, .start)
  else (none, .character (followers b) [b])

/-- Go on with a character; a byte that does not follow ends it, and both mean nothing. -/
def continued (due : Nat) (bytes : List UInt8) (b : UInt8) : Option Input × Reading :=
  if !follows b then (none, .start)
  else if due ≤ 1 then (ofBytes? (b :: bytes).reverse, .start)
  else (none, .character (due - 1) (b :: bytes))

/-! ### Sequences -/

/-- Begin a sequence after `ESC [`. -/
def opened (c : Char) : Option Input × Reading :=
  if c = '[' then (none, .doubled)
  else if c = 'M' then (none, .mouse [])
  else if c = '<' then (none, .pointer [])
  else if c = '?' then (none, .reply true)
  else if c.isDigit then (none, .fields [c])
  else (Sequence.ofLetter? c, .start)

/-- Go on with the bytes about the mouse; the third is the last. -/
def pointed (bytes : List UInt8) (b : UInt8) : Option Input × Reading :=
  match bytes with
  | [_, first] => (Sequence.ofMouse? first, .start)
  | _ => (none, .mouse (b :: bytes))

/-- Whether a character ends the fields of a sequence. -/
def isFinal (c : Char) : Bool := 0x40 ≤ c.toNat && c.toNat ≤ 0x7E

/-- The fields that begin pasted text. -/
def pasteFields : List Char := ['2', '0', '0']

/-- What ends pasted text. -/
def pasteEnd : List Char := ['\x1b', '[', '2', '0', '1', '~']

/-- Go on with fields. -/
def listed (cs : List Char) (c : Char) : Option Input × Reading :=
  if !isFinal c then (none, .fields (c :: cs))
  else if c = '~' ∧ cs.reverse = pasteFields then (none, .paste pasteEnd)
  else (Sequence.ofFields? cs.reverse c, .start)

/-- What is missing of the end of pasted text after one more character. -/
def missingAfter (missing : List Char) (c : Char) : List Char :=
  if missing.head? = some c then missing.tail
  else if c = '\x1b' then pasteEnd.tail
  else pasteEnd

/-- Go on with pasted text. -/
def pasted (missing : List Char) (c : Char) : Option Input × Reading :=
  match missingAfter missing c with
  | [] => (some .other, .start)
  | m => (none, .paste m)

/-! ### Reading on -/

/-- Read a byte: what it completes, if anything, and where the reader stands then.  Within a
sequence a byte is taken for the character with its number. -/
def next (r : Reading) (b : UInt8) : Option Input × Reading :=
  let c := Char.ofUInt8 b
  match r with
  | .start => if c = '\x1b' then (none, .escape) else begun b
  | .character due bytes => continued due bytes b
  | .escape =>
    if c = '[' then (none, .sequence)
    else if c = 'O' then (none, .single)
    else begun b
  | .single => (Sequence.ofSingle? c, .start)
  | .sequence => opened c
  | .doubled => (Sequence.ofDoubled? c, .start)
  | .mouse bytes => pointed bytes b
  | .pointer cs =>
    if c = 'm' ∨ c = 'M' then (Sequence.ofPointer? 0 cs.reverse, .start)
    else (none, .pointer (c :: cs))
  | .reply empty =>
    if c = 'c' ∨ (c = 'u' ∧ empty = false) then (some .reply, .start) else (none, .reply false)
  | .fields cs => listed cs c
  | .paste missing => pasted missing c

/-- What it amounts to that nothing comes next, and where the reader stands then.  An escape
character that comes last is the escape key. -/
def atEnd : Reading → List Input × Reading
  | .escape => ([.pressOf .escape], .start)
  | r => ([], r)

/-- Read bytes that arrive together: what they amount to, and where the reader stands then.  There
may be `more` to come at once. -/
def read (more : Bool) : Reading → List UInt8 → List Input × Reading
  | r, [] => if more then ([], r) else r.atEnd
  | r, b :: bytes =>
    let (input, r) := r.next b
    let (inputs, r) := r.read more bytes
    (input.toList ++ inputs, r)

/-! ### Text typed all at once -/

/-- The number of bytes that are read in one turn. -/
def bytesPerTurn : Nat := 1024

/-- What bytes amount to that arrive together, and nothing after them.  They are read turn by turn,
until a turn amounts to something.  What is left then would be read only once something more
arrives, so it amounts to nothing. -/
def readTurns (r : Reading) (bytes : List UInt8) : List Input :=
  if bytes = [] then []
  else
    let (inputs, r) := r.read (decide (bytesPerTurn ≤ bytes.length)) (bytes.take bytesPerTurn)
    if inputs.isEmpty then r.readTurns (bytes.drop bytesPerTurn) else inputs
termination_by bytes.length
decreasing_by
  have : 0 < bytes.length := List.length_pos_iff.mpr ‹_›
  simp only [List.length_drop, bytesPerTurn]
  omega

/-- What a text amounts to that is typed all at once. -/
def inputsOf (text : String) : List Input := readTurns .start text.toUTF8.toList

end Reading

end Chip8
