import Mathlib.Data.List.Basic
import Chip8.Proofs.Text.Number
import Chip8.Terminal.Picture
import Chip8.Terminal.Reading

/-!
# A screen

A screen is a grid of cells with a cursor.  It prints characters where the cursor stands and obeys
the sequences that move the cursor; what it does about anything else, and about anything that would
leave the grid, is left open.

* `Screen.replay_visible` : characters on a line overwrite its cells from the cursor on.
* `Screen.replay_moveTo` : a cursor move goes to the start of a line.
* `Screen.replay_text` : the text of a picture lays the picture over the cells of the screen.
-/

namespace Chip8

namespace Spelling

/-- The first part of a text ends where the separator stands first. -/
theorem parts_append {separator : Char} {cs : List Char} (absent : separator ∉ cs)
    (ds : List Char) : parts separator (cs ++ separator :: ds) = cs :: parts separator ds := by
  induction cs with
  | nil => exact if_pos rfl
  | cons c cs ih =>
    rw [List.mem_cons, not_or] at absent
    rw [List.cons_append, parts, if_neg (Ne.symm absent.1), ih absent.2]

end Spelling

/-! ### The screen -/

/-- How far a screen has read a sequence. -/
inductive Screen.Mode where
  /-- It is not in one. -/
  | plain
  /-- After an escape character. -/
  | escape
  /-- After `ESC [` and the characters read of the fields, last first. -/
  | fields (cs : List Char)

/-- A screen. -/
structure Screen (columns lines : Nat) where
  /-- The characters in the cells, by line and column. -/
  cells : Fin lines → Fin columns → Char
  /-- The line of the cursor. -/
  line : Fin lines
  /-- The column of the cursor. -/
  column : Fin columns
  /-- How far a sequence was read. -/
  mode : Screen.Mode

namespace Screen

variable {columns lines : Nat}

/-- The screen with a character at the cursor, which goes on to the next column, if there is
one. -/
def print (s : Screen columns lines) (c : Char) : Option (Screen columns lines) :=
  if inside : s.column.val + 1 < columns then
    some { s with
      cells := fun i j => if i = s.line ∧ j = s.column then c else s.cells i j
      column := ⟨s.column.val + 1, inside⟩ }
  else none

/-- The screen with the cursor at a place, if there is one, at the end of a sequence. -/
def move (s : Screen columns lines) (line column : Nat) : Option (Screen columns lines) :=
  if inside : line < lines ∧ column < columns then
    some { s with line := ⟨line, inside.1⟩, column := ⟨column, inside.2⟩, mode := .plain }
  else none

/-- Whether a character is one that nothing is printed for. -/
def controls (c : Char) : Bool :=
  c.toNat < 0x20 || (0x7F ≤ c.toNat && c.toNat < 0xA0)

/-- A coordinate in fields, counted from zero; the fields count it from one, which stands for a
missing one too. -/
def coordinate (n : Nat) (fields : List Char) : Nat :=
  (Number.digits? (Spelling.part ';' n fields)).getD 1 - 1

variable (beyond : Char → Screen columns lines → Screen columns lines)

/-- The screen after a character, where `beyond` says what it does if this is left open. -/
def next (s : Screen columns lines) (c : Char) : Screen columns lines :=
  match s.mode with
  | .plain =>
    if c = '\x1b' then { s with mode := .escape }
    else if c = '\x07' then s
    else if controls c then beyond c s
    else (s.print c).getD (beyond c s)
  | .escape => if c = '[' then { s with mode := .fields [] } else beyond c s
  | .fields cs =>
    if !Reading.isFinal c then { s with mode := .fields (c :: cs) }
    else if c = 'H' then
      (s.move (coordinate 0 cs.reverse) (coordinate 1 cs.reverse)).getD (beyond c s)
    else beyond c s

/-- The screen after some characters. -/
def replay (s : Screen columns lines) (cs : List Char) : Screen columns lines :=
  cs.foldl (next beyond) s

/-- The screen after the bytes of a text; bytes that are not those of a text are left out. -/
def replayBytes (s : Screen columns lines) (bytes : ByteArray) : Screen columns lines :=
  ((String.fromUTF8? bytes).map fun text => replay beyond s text.toList).getD s

/-- The cells with the first lines of a picture over them. -/
def overlay (f : Frame) (n : Nat) (cells : Fin lines → Fin columns → Char) (i : Fin lines)
    (j : Fin columns) : Char :=
  if i.val < n ∧ j.val < 64 then Picture.glyph (f.pixel j (2 * i)) (f.pixel j (2 * i + 1))
  else cells i j

variable {s : Screen columns lines} {cs : List Char}

theorem replay_append (s : Screen columns lines) (cs ds : List Char) :
    replay beyond s (cs ++ ds) = replay beyond (replay beyond s cs) ds :=
  List.foldl_append

/-- The bytes of a text are read as the text. -/
theorem replayBytes_toUTF8 (s : Screen columns lines) (text : String) :
    replayBytes beyond s text.toUTF8 = replay beyond s text.toList := by
  have read : String.fromUTF8? text.toUTF8 = some text := dif_pos text.isValidUTF8
  rw [replayBytes, read]
  rfl

/-! ### Printing -/

theorem next_visible {c : Char} (visible : controls c = false) (plain : s.mode = .plain)
    (room : s.column.val + 1 < columns) :
    next beyond s c =
      { s with
        cells := fun i j => if i = s.line ∧ j = s.column then c else s.cells i j
        column := ⟨s.column.val + 1, room⟩ } := by
  have escape : c ≠ '\x1b' := fun same => absurd (same ▸ visible) (by decide)
  have bell : c ≠ '\x07' := fun same => absurd (same ▸ visible) (by decide)
  simp only [next, plain, if_neg escape, if_neg bell, visible]
  rw [if_neg Bool.false_ne_true, print, dif_pos room, Option.getD_some, plain]

/-- Characters on a line overwrite its cells from the cursor on. -/
theorem replay_visible (visible : ∀ c ∈ cs, controls c = false) (plain : s.mode = .plain)
    (room : s.column.val + cs.length < columns) :
    (replay beyond s cs).mode = .plain ∧
      ∀ i j, (replay beyond s cs).cells i j =
        if i = s.line ∧ s.column ≤ j then (cs[j.val - s.column.val]?).getD (s.cells i j)
        else s.cells i j := by
  induction cs generalizing s with
  | nil => exact ⟨plain, fun i j => by simp [replay]⟩
  | cons c cs ih =>
    rw [List.forall_mem_cons] at visible
    rw [List.length_cons] at room
    have first := next_visible beyond visible.1 plain (by omega)
    obtain ⟨mode, cells⟩ := ih (s := next beyond s c) visible.2 (by rw [first]; exact plain)
      (by rw [first]; show s.column.val + 1 + cs.length < columns; omega)
    refine ⟨mode, fun i j => (cells i j).trans ?_⟩
    rw [first]
    -- the rest is printed from the next column on, so only the cell under the cursor is new
    by_cases line : i = s.line
    · simp only [line, true_and, Fin.le_def, Fin.ext_iff]
      obtain before | here | after := Nat.lt_trichotomy j.val s.column.val
      · rw [if_neg (by omega), if_neg (by omega), if_neg (by omega)]
      · rw [if_neg (by omega), if_pos here, if_pos (by omega), here, Nat.sub_self]
        rfl
      · have later : j.val - s.column.val = j.val - (s.column.val + 1) + 1 := by omega
        rw [if_pos (by omega), if_neg (by omega), if_pos (by omega), later,
          List.getElem?_cons_succ]
    · simp only [line, false_and, if_false]

/-! ### Moving the cursor -/

theorem replay_fields {ds : List Char} (inside : ∀ c ∈ cs, Reading.isFinal c = false)
    (mode : s.mode = .fields ds) :
    replay beyond s cs = { s with mode := .fields (cs.reverse ++ ds) } := by
  induction cs generalizing s ds with
  | nil => exact congrArg (fun mode => { s with mode := mode }) mode
  | cons c cs ih =>
    rw [List.forall_mem_cons] at inside
    have first : next beyond s c = { s with mode := .fields (c :: ds) } := by
      simp [next, mode, inside.1]
    show replay beyond (next beyond s c) cs = _
    rw [first, ih inside.2 rfl, List.reverse_cons, List.append_assoc]
    rfl

theorem isFinal_digit {c : Char} (h : c.isDigit = true) : Reading.isFinal c = false := by
  have bounds : 48 ≤ c.val ∧ c.val ≤ 57 := by simpa [Char.isDigit] using h
  have small : c.toNat ≤ 57 := UInt32.le_iff_toNat_le.1 bounds.2
  rw [Reading.isFinal, decide_eq_false (by omega), Bool.false_and]

/-- The first coordinate of `n ; 1` is one less than `n`, and the second one is zero. -/
theorem coordinate_digits (k : Nat) :
    coordinate 0 ((toString (k + 1)).toList ++ [';', '1']) = k ∧
      coordinate 1 ((toString (k + 1)).toList ++ [';', '1']) = 0 := by
  have absent : ';' ∉ (toString (k + 1)).toList := fun mem =>
    absurd (Number.isDigit_toString mem) (by decide)
  have parts : Spelling.parts ';' ((toString (k + 1)).toList ++ [';', '1']) =
      [(toString (k + 1)).toList, ['1']] := Spelling.parts_append absent ['1']
  simp only [coordinate, Spelling.part, parts]
  refine ⟨?_, rfl⟩
  rw [List.getD_cons_zero, Number.digits?_toString, Option.getD_some, Nat.add_sub_cancel]

theorem toList_moveTo (k : Nat) :
    (Picture.moveTo k).toList =
      ['\x1b', '['] ++ ((toString (k + 1)).toList ++ [';', '1']) ++ ['H'] := by
  simp [Picture.moveTo, String.toList_append]

/-- A cursor move goes to the start of a line. -/
theorem replay_moveTo (plain : s.mode = .plain) (wide : 0 < columns) {k : Nat} (h : k < lines) :
    replay beyond s (Picture.moveTo k).toList = { s with line := ⟨k, h⟩, column := ⟨0, wide⟩ } := by
  have inside : ∀ c ∈ (toString (k + 1)).toList ++ [';', '1'], Reading.isFinal c = false := by
    intro c mem
    obtain digit | tail := List.mem_append.1 mem
    · exact isFinal_digit (Number.isDigit_toString digit)
    · obtain rfl | rfl : c = ';' ∨ c = '1' := by simpa using tail
      · rfl
      · rfl
  have opened : replay beyond s ['\x1b', '['] = { s with mode := .fields [] } := by
    simp [replay, next, plain]
  obtain ⟨line, column⟩ := coordinate_digits k
  rw [toList_moveTo, replay_append, replay_append, opened, replay_fields beyond inside rfl,
    List.append_nil]
  simp only [replay, List.foldl_cons, List.foldl_nil, next, List.reverse_reverse, line, column]
  rw [move, dif_pos ⟨h, wide⟩, plain]
  rfl

/-! ### Showing a picture -/

theorem controls_glyph (upper lower : Bool) : controls (Picture.glyph upper lower) = false := by
  revert upper lower
  decide

theorem getElem?_line (f : Frame) (k j : Nat) :
    (Picture.line f k)[j]? =
      if j < 64 then some (Picture.glyph (f.pixel j (2 * k)) (f.pixel j (2 * k + 1)))
      else none := by
  rw [Picture.line, List.getElem?_map, Frame.width]
  by_cases h : j < 64
  · rw [List.getElem?_range h, if_pos h]
    rfl
  · rw [List.getElem?_eq_none (by simpa using h), if_neg h]
    rfl

theorem overlay_succ (f : Frame) (n : Nat) (cells : Fin lines → Fin columns → Char) (i : Fin lines)
    (j : Fin columns) :
    overlay f (n + 1) cells i j =
      if i.val = n ∧ j.val < 64 then Picture.glyph (f.pixel j (2 * n)) (f.pixel j (2 * n + 1))
      else overlay f n cells i j := by
  unfold overlay
  by_cases here : i.val = n
  · simp [here]
  · have lines : i.val < n + 1 ↔ i.val < n := by omega
    simp [here, lines]

/-- The cells with a picture over them, if there is one. -/
def showing (last : Option Frame) (cells : Fin lines → Fin columns → Char) :
    Fin lines → Fin columns → Char :=
  match last with
  | none => cells
  | some f => overlay f 16 cells

/-- Nothing is left over of an earlier picture. -/
theorem showing_or (later earlier : Option Frame) (cells : Fin lines → Fin columns → Char) :
    showing (later.or earlier) cells = showing later (showing earlier cells) := by
  cases later with
  | none => rfl
  | some f =>
    cases earlier with
    | none => rfl
    | some g =>
      funext i j
      simp only [Option.some_or, showing, overlay]
      split <;> rfl

/-- A line of a picture goes below the lines that were shown. -/
theorem replay_line {cells : Fin lines → Fin columns → Char} {f : Frame} {k : Nat}
    (plain : s.mode = .plain) (wide : 64 < columns) (high : k < lines)
    (shown : s.cells = overlay f k cells) :
    (replay beyond s ((Picture.moveTo k).toList ++ Picture.line f k)).mode = .plain ∧
      (replay beyond s ((Picture.moveTo k).toList ++ Picture.line f k)).cells =
        overlay f (k + 1) cells := by
  have visible : ∀ c ∈ Picture.line f k, controls c = false := by
    intro c mem
    obtain ⟨x, -, rfl⟩ := List.mem_map.1 mem
    exact controls_glyph ..
  have length : (Picture.line f k).length = 64 := by simp [Picture.line, Frame.width]
  rw [replay_append, replay_moveTo beyond plain (by omega) high]
  obtain ⟨mode, printed⟩ := replay_visible beyond
    (s := { s with line := ⟨k, high⟩, column := ⟨0, by omega⟩ }) visible plain (by simpa [length])
  refine ⟨mode, funext fun i => funext fun j => (printed i j).trans ?_⟩
  rw [shown, overlay_succ]
  simp only [getElem?_line, Fin.ext_iff, Fin.le_def, Nat.zero_le, and_true, Nat.sub_zero]
  by_cases here : i.val = k
  · by_cases inside : j.val < 64 <;> simp [here, inside]
  · simp [here]

/-- The lines of a picture, one after the other. -/
theorem replay_lines (plain : s.mode = .plain) (wide : 64 < columns) (f : Frame) {n : Nat}
    (high : n ≤ lines) :
    let drawn := replay beyond s
      ((List.range n).flatMap fun k => (Picture.moveTo k).toList ++ Picture.line f k)
    drawn.mode = .plain ∧ drawn.cells = overlay f n s.cells := by
  induction n with
  | zero => exact ⟨plain, funext fun i => funext fun j => by simp [replay, overlay]⟩
  | succ n ih =>
    obtain ⟨mode, cells⟩ := ih (Nat.le_of_succ_le high)
    rw [List.range_succ, List.flatMap_append, List.flatMap_singleton]
    simp only [replay_append beyond s]
    exact replay_line beyond mode wide high cells

theorem toList_text (f : Frame) :
    (Picture.text f).toList =
      (List.range 16).flatMap fun k => (Picture.moveTo k).toList ++ Picture.line f k := by
  simp [Picture.text, Picture.lines, String.toList_join, List.flatMap_map, String.toList_append]

/-- The characters that the text of a picture is made of. -/
def spells (c : Char) : Bool :=
  c.isDigit || ['\x1b', '[', ';', 'H', '█', '▀', '▄', ' '].contains c

theorem spells_text {f : Frame} {c : Char} (mem : c ∈ (Picture.text f).toList) :
    spells c = true := by
  rw [toList_text] at mem
  obtain ⟨k, -, mem⟩ := List.mem_flatMap.1 mem
  obtain move | cell := List.mem_append.1 mem
  · rw [toList_moveTo] at move
    simp only [List.mem_append, List.mem_cons, List.not_mem_nil, or_false] at move
    obtain ((rfl | rfl) | digit | rfl | rfl) | rfl := move
    · rfl
    · rfl
    · rw [spells, Number.isDigit_toString digit, Bool.true_or]
    · rfl
    · rfl
    · rfl
  · obtain ⟨x, -, rfl⟩ := List.mem_map.1 cell
    generalize f.pixel x (2 * k) = upper, f.pixel x (2 * k + 1) = lower
    revert upper lower
    decide

/-- **The text of a picture lays it over the screen.** -/
theorem replay_text (plain : s.mode = .plain) (wide : 64 < columns) (high : 16 ≤ lines)
    (f : Frame) :
    (replay beyond s (Picture.text f).toList).mode = .plain ∧
      (replay beyond s (Picture.text f).toList).cells = overlay f 16 s.cells := by
  rw [toList_text]
  exact replay_lines beyond plain wide f high

end Screen

end Chip8
