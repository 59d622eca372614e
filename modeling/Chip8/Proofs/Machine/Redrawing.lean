import Mathlib.Data.List.Perm.Basic
import Chip8.Proofs.Machine.Drawing
import Chip8.Proofs.Machine.History

/-!
# Drawing in any order, and drawing again

A sprite flips the same points whatever was drawn before it: drawing changes no register but the
flag register, and that is cleared before the position of a sprite is read.  So sprites may be drawn
in any order, and drawing them a second time restores the picture
(`Machine.redraws_restore`).

* `Machine.Alike` : machines on which every sprite flips the same points.
* `Machine.run_sketches` : a sequence of sprites flips the points of each of them.
* `Machine.flag_redraw_iff` : when a sprite is drawn twice in a row, a lit pixel is met at one of
  the two times exactly if the sprite is not blank.
-/

namespace Chip8

namespace Instruction

/-- Whether a sprite is drawn. -/
def draws : Instruction → Bool
  | .draw .. => true
  | _ => false

/-- Whether a sprite is drawn, or a byte is put into the flag register. -/
def sketches : Instruction → Bool
  | .draw .. => true
  | .setByte x _ => x = Machine.flagRegister
  | _ => false

end Instruction

namespace Machine

/-- Machines that differ in nothing that sprites and their positions are read from. -/
structure Alike (m n : Machine) : Prop where
  registers : ∀ r ≠ flagRegister, n.reg r = m.reg r
  index : n.index = m.index
  memory : n.memory = m.memory

/-- The points that an instruction flips. -/
def strokes (m : Machine) : Instruction → List (Nat × Nat)
  | .draw x y n => Sprite.points (m.left x) (m.top y) (m.sprite n)
  | _ => []

variable {m n k : Machine} {op : Instruction} {ops ops' : List Instruction} {x y : Register}

/-! ### Points -/

theorem Alike.trans (h : Alike m n) (h' : Alike n k) : Alike m k where
  registers r other := (h'.registers r other).trans (h.registers r other)
  index := h'.index.trans h.index
  memory := h'.memory.trans h.memory

/-- Registers read the same once the flag register is cleared. -/
theorem Alike.cleared (h : Alike m n) (x : Register) :
    (n.setReg flagRegister 0).reg x = (m.setReg flagRegister 0).reg x := by
  rw [reg_setReg, reg_setReg]
  split
  · rfl
  · rename_i other
    exact h.registers x fun same => other same.symm

theorem Alike.spriteRow (h : Alike m n) (r : ℕ) : n.spriteRow r = m.spriteRow r := by
  simp only [Machine.spriteRow, h.memory, h.index]

theorem Alike.strikes (h : Alike m n) (rows : UInt8) (px py : ℕ) :
    n.strikes x y rows px py = m.strikes x y rows px py := by
  refine Finset.filter_congr fun p _ => ?_
  simp only [left, top, h.cleared, h.spriteRow]

theorem Alike.strokes (h : Alike m n) (op : Instruction) : n.strokes op = m.strokes op := by
  cases op with
  | draw x y rows =>
    simp only [Machine.strokes, left, top, h.cleared, sprite, h.memory, h.index]
  | _ => rfl

/-- Only the sprites among some instructions flip points. -/
theorem flatMap_strokes (m : Machine) (ops : List Instruction) :
    ops.flatMap m.strokes = (ops.filter Instruction.draws).flatMap m.strokes := by
  induction ops with
  | nil => rfl
  | cons op ops ih =>
    cases draws : op.draws with
    | true => rw [List.filter_cons_of_pos draws, List.flatMap_cons, List.flatMap_cons, ih]
    | false =>
      have none : m.strokes op = [] := by
        cases op with
        | draw => cases draws
        | _ => rfl
      rw [List.filter_cons_of_neg (Bool.eq_false_iff.1 draws), List.flatMap_cons, none, ih,
        List.nil_append]

/-! ### One sprite and many -/

theorem act_draw (m : Machine) (x y : Register) (rows : UInt8) :
    m.act (.execute (.draw x y rows)) =
      { m with frame := (m.drawn x y rows).1, stale := true }.setReg flagRegister
        (m.drawn x y rows).2.toUInt8 := by
  simp only [act, execute_draw_eq]

theorem alike_setReg (m : Machine) (frame : Frame) (stale : Bool) (b : UInt8) :
    Alike m ({ m with frame := frame, stale := stale }.setReg flagRegister b) where
  registers _ other := reg_setReg_of_ne _ b other
  index := rfl
  memory := rfl

theorem act_of_sketches (h : op.sketches = true) :
    Alike m (m.act (.execute op)) ∧
      (m.act (.execute op)).frame = (m.frame.toggleAll (m.strokes op)).1 := by
  cases op with
  | draw x y rows =>
    rw [act_draw]
    exact ⟨alike_setReg m _ _ _, rfl⟩
  | setByte x b =>
    obtain rfl : x = flagRegister := of_decide_eq_true h
    exact ⟨alike_setReg m m.frame m.stale b, rfl⟩
  | _ => cases h

/-- **A sequence of sprites flips the points of each of them**, whatever is put into the flag
register in between. -/
theorem run_sketches (h : ∀ op ∈ ops, op.sketches = true) :
    Alike m (m.run (ops.map .execute)) ∧
      (m.run (ops.map .execute)).frame = (m.frame.toggleAll (ops.flatMap m.strokes)).1 := by
  induction ops generalizing m with
  | nil => exact ⟨⟨fun _ _ => rfl, rfl, rfl⟩, rfl⟩
  | cons op ops ih =>
    obtain ⟨first, later⟩ := List.forall_mem_cons.1 h
    obtain ⟨alike, frame⟩ := act_of_sketches (m := m) first
    obtain ⟨alike', frame'⟩ := ih (m := m.act (.execute op)) later
    refine ⟨alike.trans alike', ?_⟩
    -- The points of what follows do not depend on the sprite that was drawn.
    have same : (m.act (.execute op)).strokes = m.strokes := funext alike.strokes
    rw [List.flatMap_cons, Frame.toggleAll_append, ← frame, ← same]
    exact frame'

/-! ### One sprite twice in a row -/

theorem flag_draw_iff (m : Machine) (x y : Register) (rows : UInt8) :
    (m.act (.execute (.draw x y rows))).reg flagRegister = 1 ↔
      ∃ px < 64, ∃ py < 32, m.Meets x y rows px py := by
  rw [act_draw, reg_setReg, if_pos rfl, ← drawn_lit_iff]
  cases (m.drawn x y rows).2 <;> decide

/-- A sprite strikes some pixel exactly if it is not blank. -/
theorem strikes_iff (m : Machine) (x y : Register) (rows : UInt8) :
    (∃ px < 64, ∃ py < 32, 1 ≤ (m.strikes x y rows px py).card) ↔
      ∃ r < rows.toNat, ∃ k < 8, (m.spriteRow r).toNat.testBit k = true := by
  constructor
  · rintro ⟨px, -, py, -, struck⟩
    obtain ⟨⟨r, k⟩, mem⟩ := Finset.card_pos.1 struck
    simp only [strikes, Finset.mem_filter, Finset.mem_product, Finset.mem_range] at mem
    exact ⟨r, mem.1.1, 7 - k, by omega, mem.2.1⟩
  · rintro ⟨r, hr, k, hk, bit⟩
    have back : 7 - (7 - k) = k := by omega
    refine ⟨(m.left x + (7 - k)) % 64, Nat.mod_lt _ (by decide), (m.top y + r) % 32,
      Nat.mod_lt _ (by decide), Finset.card_pos.2 ⟨(r, 7 - k), ?_⟩⟩
    have inside : (r, 7 - k) ∈ Finset.range rows.toNat ×ˢ Finset.range 8 :=
      Finset.mem_product.2 ⟨Finset.mem_range.2 hr, Finset.mem_range.2 (by omega)⟩
    exact Finset.mem_filter.2 ⟨inside, back.symm ▸ bit, rfl, rfl⟩

/-- A pixel that a sprite strikes is lit before the sprite is drawn, or it is lit afterwards. -/
theorem meets_or_meets_iff {rows : UInt8} (short : rows.toNat ≤ 32) (alike : Alike m n)
    (frame : n.frame = (m.drawn x y rows).1) {px py : ℕ} (hx : px < 64) (hy : py < 32) :
    m.Meets x y rows px py ∨ n.Meets x y rows px py ↔ 1 ≤ (m.strikes x y rows px py).card := by
  have once := m.card_strikes_le_one x y rows short px py
  rw [Meets, Meets, alike.strikes, frame, pixel_drawn hx hy]
  generalize (m.strikes x y rows px py).card = c at once
  obtain rfl | rfl : c = 0 ∨ c = 1 := by omega
  · simp
  · -- The pixel is lit at the first time, or it is dark and so lit at the second time.
    cases m.frame.pixel px py <;> simp

/-- **Of two times in a row that a sprite is drawn, a lit pixel is met at one exactly if the sprite
is not blank.** -/
theorem flag_redraw_iff {rows : UInt8} (short : rows.toNat ≤ 32) (m : Machine) (x y : Register) :
    (m.act (.execute (.draw x y rows))).reg flagRegister = 1 ∨
      ((m.act (.execute (.draw x y rows))).act (.execute (.draw x y rows))).reg flagRegister = 1 ↔
      ∃ r < rows.toNat, ∃ k < 8, (m.spriteRow r).toNat.testBit k = true := by
  have sketch : (Instruction.draw x y rows).sketches = true := rfl
  obtain ⟨alike, frame⟩ := act_of_sketches (m := m) sketch
  rw [flag_draw_iff, flag_draw_iff, ← strikes_iff]
  constructor
  · rintro (⟨px, hx, py, hy, met⟩ | ⟨px, hx, py, hy, met⟩)
    · exact ⟨px, hx, py, hy, (meets_or_meets_iff short alike frame hx hy).1 (.inl met)⟩
    · exact ⟨px, hx, py, hy, (meets_or_meets_iff short alike frame hx hy).1 (.inr met)⟩
  · rintro ⟨px, hx, py, hy, struck⟩
    rcases (meets_or_meets_iff short alike frame hx hy).2 struck with met | met
    · exact .inl ⟨px, hx, py, hy, met⟩
    · exact .inr ⟨px, hx, py, hy, met⟩

/-! ### Many sprites in any order -/

/-- **Sprites may be drawn in any order, and drawing them again restores the picture.**  Let `ops`
and `ops'` be sequences of instructions that draw the same sprites in some order each; in between
bytes may be put into the flag register.

* None of these instructions fails.
* Both sequences leave the same picture.
* One after the other they leave the picture as it was.
* When a sprite that is no taller than the picture is drawn twice in a row, the flag register is one
  after at least one of the two times exactly if some bit of its rows is set. -/
theorem redraws_restore (m : Machine) (only : ∀ op ∈ ops ++ ops', op.sketches = true)
    (same : (ops.filter Instruction.draws).Perm (ops'.filter Instruction.draws)) :
    (∀ op ∈ ops ++ ops', ∀ k : Machine, ∃ e, k.execute op = .ok e) ∧
      (m.run (ops.map .execute)).frame = (m.run (ops'.map .execute)).frame ∧
      ((m.run (ops.map .execute)).run (ops'.map .execute)).frame = m.frame ∧
      ∀ x y n, n.toNat ≤ 32 →
        let once := m.act (.execute (.draw x y n))
        let twice := once.act (.execute (.draw x y n))
        once.reg flagRegister = 1 ∨ twice.reg flagRegister = 1 ↔
          ∃ r < n.toNat, ∃ k < 8, (m.spriteRow r).toNat.testBit k = true := by
  obtain ⟨first, second⟩ := List.forall_mem_append.1 only
  have points : (ops.flatMap m.strokes).Perm (ops'.flatMap m.strokes) := by
    rw [flatMap_strokes, flatMap_strokes m ops']
    exact same.flatMap_right m.strokes
  obtain ⟨alike, frame⟩ := run_sketches (m := m) first
  obtain ⟨-, frame'⟩ := run_sketches (m := m) second
  obtain ⟨-, back⟩ := run_sketches (m := m.run (ops.map .execute)) second
  refine ⟨fun op mem k => ?_, ?_, ?_, fun x y n short => flag_redraw_iff short m x y⟩
  · have sketch := only op mem
    cases op with
    | draw x y n => exact ⟨_, k.execute_draw_eq x y n⟩
    | setByte x b => exact ⟨_, rfl⟩
    | _ => cases sketch
  · rw [frame, frame', m.frame.toggleAll_perm points]
  · rw [back, funext alike.strokes, frame, ← Frame.toggleAll_append,
      m.frame.toggleAll_append_of_perm points]

/-- Two sprites overlap across an edge of the picture, and the flag register is a coordinate of
each. -/
theorem redraws_restore_of_overlap :
    let m := (blank .standard (.ofFaces fun _ => 0)).run
      [.execute (.setByte 0 0xF0), .execute (.storeRegisters 0), .execute (.setByte 2 62)]
    let ops := [Instruction.draw 0xF 1 5, .setByte 0xF 7, .draw 2 0xF 3]
    let ops' := [Instruction.setByte 0xF 9, .draw 2 0xF 3, .draw 0xF 1 5]
    let once := m.act (.execute (.draw 0xF 1 5))
    let twice := once.act (.execute (.draw 0xF 1 5))
    (∀ op ∈ ops ++ ops', op.sketches = true) ∧
      (ops.filter Instruction.draws).Perm (ops'.filter Instruction.draws) ∧
      (m.run (ops.map .execute)).frame.pixel 62 0 = true ∧
      (m.run (ops.map .execute)).frame = (m.run (ops'.map .execute)).frame ∧
      ((m.run (ops.map .execute)).run (ops'.map .execute)).frame = m.frame ∧
      (once.reg flagRegister = 1 ∨ twice.reg flagRegister = 1) := by
  intro m ops ops' once twice
  have only : ∀ op ∈ ops ++ ops', op.sketches = true := by decide
  have same : (ops.filter Instruction.draws).Perm (ops'.filter Instruction.draws) :=
    List.Perm.swap _ _ _
  obtain ⟨-, order, restored, flag⟩ := redraws_restore m only same
  have bit : (m.spriteRow 0).toNat.testBit 7 = true := by decide +kernel
  exact ⟨only, same, by decide +kernel, order, restored,
    (flag 0xF 1 5 (by decide)).2 ⟨0, by decide, 7, by decide, bit⟩⟩

end Machine

end Chip8
