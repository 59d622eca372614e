import Chip8.Proofs.Frame.Toggling
import Chip8.Proofs.Instruction.Words
import Chip8.Proofs.Machine.WellFormed
import Chip8.Proofs.Memory.Words

/-!
# Drawing a sprite

A sprite has eight columns and up to 255 rows.  Its rows are read around the ring of memory, and its
columns and rows run around the edges of the picture, so the rows of a tall sprite meet again.

* `Machine.strikes` : the rows and columns of a sprite that strike a pixel.
* `Machine.card_strikes_le_one` : a sprite that is no taller than the picture strikes a pixel once.
* `Machine.execute_draw` : what drawing a sprite makes of every pixel, of the flag register, and of
  the rest of the machine.
-/

namespace Chip8

namespace Machine

open Finset

/-- The column of the upper left corner of a sprite.  The flag register is cleared before it is
read. -/
def left (m : Machine) (x : Register) : ℕ := ((m.setReg flagRegister 0).reg x).toNat

/-- The row of the upper left corner of a sprite. -/
def top (m : Machine) (y : Register) : ℕ := ((m.setReg flagRegister 0).reg y).toNat

/-- Row `r` of the sprite at the index; it may lie past the end of memory, at its start. -/
def spriteRow (m : Machine) (r : ℕ) : UInt8 :=
  m.memory.read (UInt16.ofNat ((m.index.toNat + r) % 4096))

/-- The rows and columns of a sprite that strike a pixel: their bit is set, counted from the left,
and they lie on the pixel when the edges of the picture wrap around. -/
def strikes (m : Machine) (x y : Register) (n : UInt8) (px py : ℕ) : Finset (ℕ × ℕ) :=
  (range n.toNat ×ˢ range 8).filter fun (r, k) =>
    (m.spriteRow r).toNat.testBit (7 - k) ∧ (m.left x + k) % 64 = px ∧ (m.top y + r) % 32 = py

variable (m : Machine) (x y : Register) (n : UInt8)

/-! ### How often a pixel is struck -/

theorem sprite_eq_map_spriteRow : m.sprite n = (List.range n.toNat).map m.spriteRow :=
  List.map_congr_left fun r _ => m.memory.read_add m.index r

theorem hits_sprite {px py : ℕ} (hx : px < 64) (hy : py < 32) :
    Frame.hits (Sprite.points (m.left x) (m.top y) (m.sprite n)) px py =
      (m.strikes x y n px py).card := by
  rw [sprite_eq_map_spriteRow, Sprite.hits_points, Nat.mod_eq_of_lt hx, Nat.mod_eq_of_lt hy]
  rfl

/-- **A sprite that is no taller than the picture strikes a pixel at most once.** -/
theorem card_strikes_le_one (h : n.toNat ≤ 32) (px py : ℕ) :
    (m.strikes x y n px py).card ≤ 1 := by
  rw [card_le_one]
  rintro ⟨r, k⟩ one ⟨s, l⟩ other
  simp only [strikes, mem_filter, mem_product, mem_range] at one other
  obtain ⟨⟨hr, hk⟩, -, columnOne, rowOne⟩ := one
  obtain ⟨⟨hs, hl⟩, -, columnOther, rowOther⟩ := other
  -- Rows that lie on one pixel are a multiple of 32 apart, columns a multiple of 64.
  have row : r = s := by omega
  have column : k = l := by omega
  rw [row, column]

/-! ### The picture -/

/-- The picture after a sprite was drawn, and whether a lit pixel was met. -/
def drawn (m : Machine) (x y : Register) (n : UInt8) : Frame × Bool :=
  m.frame.toggleAll (Sprite.points (m.left x) (m.top y) (m.sprite n))

variable {m x y n}

theorem pixel_drawn {px py : ℕ} (hx : px < 64) (hy : py < 32) :
    (m.drawn x y n).1.pixel px py =
      (m.frame.pixel px py ^^ decide (Odd (m.strikes x y n px py).card)) := by
  rw [drawn, Frame.pixel_toggleAll, hits_sprite m x y n hx hy]

/-- A pixel is met when it is lit: it is struck twice, or struck and lit before. -/
def Meets (m : Machine) (x y : Register) (n : UInt8) (px py : ℕ) : Prop :=
  2 ≤ (m.strikes x y n px py).card ∨
    1 ≤ (m.strikes x y n px py).card ∧ m.frame.pixel px py = true

theorem drawn_lit_iff :
    (m.drawn x y n).2 = true ↔ ∃ px < 64, ∃ py < 32, m.Meets x y n px py := by
  rw [drawn, Frame.toggleAll_lit_iff]
  constructor
  · rintro ⟨px, py, met⟩
    -- The pixel is found at its place on the grid.
    have hx : px % 64 < 64 := Nat.mod_lt _ (by decide)
    have hy : py % 32 < 32 := Nat.mod_lt _ (by decide)
    refine ⟨px % 64, hx, py % 32, hy, ?_⟩
    rw [Meets, ← hits_sprite m x y n hx hy, Frame.hits_mod,
      m.frame.pixel_congr (Nat.mod_mod ..) (Nat.mod_mod ..)]
    exact met
  · rintro ⟨px, hx, py, hy, met⟩
    refine ⟨px, py, ?_⟩
    rw [hits_sprite m x y n hx hy]
    exact met

/-- A pixel that is struck at most once is met when it is lit exactly if it goes dark. -/
theorem meets_iff_goes_dark (h : n.toNat ≤ 32) {px py : ℕ} (hx : px < 64) (hy : py < 32) :
    m.Meets x y n px py ↔
      m.frame.pixel px py = true ∧ (m.drawn x y n).1.pixel px py = false := by
  have once := m.card_strikes_le_one x y n h px py
  rw [pixel_drawn hx hy, Meets]
  generalize (m.strikes x y n px py).card = c at once
  obtain rfl | rfl : c = 0 ∨ c = 1 := by omega
  · simp
  · simp

/-- The flag register is written twice; everything else that drawing touches is the picture. -/
theorem execute_draw_eq (m : Machine) (x y : Register) (n : UInt8) :
    m.execute (.draw x y n) =
      .ok ⟨{ m with frame := (m.drawn x y n).1, stale := true }.setReg flagRegister
        (m.drawn x y n).2.toUInt8, []⟩ := by
  have twice (a b : UInt8) : (m.v.set 15 a).set 15 b = m.v.set 15 b := Vector.set_set ..
  have same (frame : Frame) (b : UInt8) :
      { m.setReg flagRegister 0 with frame := frame, stale := true }.setReg flagRegister b =
        { m with frame := frame, stale := true }.setReg flagRegister b :=
    congrArg (fun v => { m with frame := frame, stale := true, v := v }) (twice 0 b)
  show quiet _ = _
  rw [same]
  rfl

/-- **Drawing a sprite.**  Every pixel changes exactly if it is struck an odd number of times.  The
flag register is one if some pixel was met when it was lit, and zero otherwise; for a sprite that is
no taller than the picture, as all sprites of the instruction words are, it is one exactly if some
pixel went dark.  Beside the picture and the flag register only the mark that the picture was drawn
on changes. -/
theorem execute_draw (m : Machine) (x y : Register) (n : UInt8) :
    ∃ (frame : Frame) (flag : UInt8),
      m.execute (.draw x y n) =
        .ok ⟨{ m with frame := frame, stale := true }.setReg flagRegister flag, []⟩ ∧
      (∀ px < 64, ∀ py < 32, frame.pixel px py =
        (m.frame.pixel px py ^^ decide (Odd (m.strikes x y n px py).card))) ∧
      (flag = 0 ∨ flag = 1) ∧
      (flag = 1 ↔ ∃ px < 64, ∃ py < 32, 2 ≤ (m.strikes x y n px py).card ∨
        1 ≤ (m.strikes x y n px py).card ∧ m.frame.pixel px py = true) ∧
      (n.toNat ≤ 32 → (flag = 1 ↔ ∃ px < 64, ∃ py < 32,
        m.frame.pixel px py = true ∧ frame.pixel px py = false)) ∧
      ∀ w, Instruction.decode w = some (.draw x y n) → n.toNat ≤ 32 := by
  have flag (b : Bool) : b.toUInt8 = 1 ↔ b = true := by
    cases b <;> decide
  refine ⟨(m.drawn x y n).1, (m.drawn x y n).2.toUInt8, m.execute_draw_eq x y n,
    fun px hx py hy => pixel_drawn hx hy, ?_, ?_, ?_, ?_⟩
  · cases (m.drawn x y n).2
    · exact .inl rfl
    · exact .inr rfl
  · rw [flag, drawn_lit_iff]
    rfl
  · intro short
    rw [flag, drawn_lit_iff]
    refine exists_congr fun px => and_congr_right fun hx => exists_congr fun py =>
      and_congr_right fun hy => ?_
    exact meets_iff_goes_dark short hx hy
  · intro w word
    have digit : n < 0x10 := (Instruction.decode_eq_some_iff.1 word).1
    have digit : n.toNat < 16 := digit
    omega

/-- The last of 33 rows lies on the first.  The pixel is lit and goes dark again, so the flag is set
although no pixel was lit before. -/
example :
    let memory := (Memory.zero.write 0 0x80).write 32 0x80
    let m := { blank .standard (.ofFaces fun _ => 0) with memory := memory }
    (m.strikes 0 0 33 0 0).card = 2 ∧ (m.drawn 0 0 33).1.pixel 0 0 = false ∧
      (m.drawn 0 0 33).2 = true := by
  decide +kernel

end Machine

end Chip8
