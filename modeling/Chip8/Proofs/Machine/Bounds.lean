import Chip8.Proofs.Frame.Toggling
import Chip8.Proofs.Machine.Checked
import Chip8.Proofs.Machine.WellFormed

/-!
# No access is out of bounds

Every checked operation has a result, namely that of the unchecked one: registers are named by
numbers below sixteen, memory by the low twelve bits of an address, pixels and keys by remainders.

* `Checked.execute_eq_some` : this holds of every instruction.
* `Checked.turn_eq_some`, `Checked.act_eq_some` : so it does of a turn and of whatever is done.
* `Machine.Reachable.inBounds` : every reachable machine is well formed, and nothing that is done to
  it leaves its arrays.
-/

namespace Chip8

namespace Checked

open Machine (Advance)

variable {m : Machine}

/-! ### Elements of arrays -/

@[simp] theorem reg_eq_some (m : Machine) (x : Register) : reg m x.val = some (m.reg x) := by
  simp [reg, Machine.reg]

@[simp] theorem reg_zero_eq_some (m : Machine) : reg m 0 = some (m.reg 0) :=
  reg_eq_some m 0

@[simp] theorem setReg_eq_some (m : Machine) (x : Register) (b : UInt8) :
    setReg m x.val b = some (m.setReg x b) := by
  simp [setReg, Machine.setReg]

@[simp] theorem setReg_flag_eq_some (m : Machine) (b : UInt8) :
    setReg m 0xF b = some (m.setReg Machine.flagRegister b) :=
  setReg_eq_some m Machine.flagRegister b

@[simp] theorem read_eq_some (memory : Memory) (a : UInt16) :
    read memory a = some (memory.read a) := by
  have cell : (a &&& 0xFFF).toNat = (Memory.cell a).val := (Memory.val_cell a).symm
  simp [read, Memory.read, cell]

@[simp] theorem write_eq_some (memory : Memory) (a : UInt16) (b : UInt8) :
    write memory a b = some (memory.write a b) := by
  have cell : (a &&& 0xFFF).toNat = (Memory.cell a).val := (Memory.val_cell a).symm
  simp [write, Memory.write, cell]

theorem copyInto_eq_some {memory : Memory} {start : Nat} {bytes : Array UInt8}
    (fits : start + bytes.size ≤ 4096) :
    copyInto memory start bytes = some (memory.overlay start bytes) :=
  if_pos fits

@[simp] theorem toggle_eq_some (f : Frame) (x y : Nat) : toggle f x y = some (f.toggle x y) := by
  have slot : (y % 32 * 64 + x % 64) / 8 = (Frame.slot x y).val := by
    simp only [Frame.slot]
    omega
  have bit : (y % 32 * 64 + x % 64) % 8 = x % 8 := by omega
  simp [toggle, Frame.toggle, Frame.flip, Frame.pixel, Frame.mask, slot, bit]

theorem and_low_half (b : UInt8) : (b &&& 0xF).toNat = (Key.ofByte b).val := by
  simp only [Key.ofByte, Fin.ofNat, UInt8.toNat_and]
  exact Nat.and_two_pow_sub_one_eq_mod b.toNat 4

theorem low_half_lt (b : UInt8) : (b &&& 0xF).toNat < 16 :=
  and_low_half b ▸ (Key.ofByte b).isLt

theorem key_of_low_half (b : UInt8) (h : (b &&& 0xF).toNat < 16) :
    (⟨(b &&& 0xF).toNat, h⟩ : Key) = Key.ofByte b :=
  Fin.ext (and_low_half b)

@[simp] theorem isDown_eq_some (p : Keypad) (b : UInt8) : isDown p b = some (p.isDown b) := by
  simp only [isDown, dif_pos (low_half_lt b), key_of_low_half, Keypad.isDown]

@[simp] theorem press_eq_some (p : Keypad) (b : UInt8) (pressed : Bool) :
    press p b pressed = some (p.set b pressed) := by
  simp only [press, dif_pos (low_half_lt b), key_of_low_half, Keypad.set]

@[simp] theorem latch_eq_some (p : Keypad) (snapshot : KeySet) :
    latch p snapshot = some (p.latch snapshot) := by
  -- The snapshot is taken key by key, in the order of the keys.
  rw [← p.foldl_setKey List.mem_finRange]
  simp only [latch, press_eq_some]
  exact List.foldlM_pure

@[simp] theorem product_eq_some (b : UInt8) : product b.toUInt16 5 = some (b.toUInt16 * 5) := by
  -- A byte times five stays below a word.
  have small : b.toNat < 256 := b.toNat_lt
  refine if_pos ?_
  simp only [UInt8.toNat_toUInt16, UInt16.reduceToNat]
  omega

@[simp] theorem tick_eq_some (t : Timer) : tick t = some t.tick := by
  by_cases zero : t.value = 0
  · simp [tick, Timer.tick, Timer.active, zero]
  · have pos : 1 ≤ t.value := by
      rw [UInt8.le_iff_toNat_le]
      exact Nat.one_le_iff_ne_zero.2 fun h => zero (UInt8.toNat_inj.1 h)
    simp [tick, Timer.tick, Timer.active, zero, pos]

/-! ### Instructions -/

@[simp] theorem readWord_eq_some (memory : Memory) (a : UInt16) :
    readWord memory a = some (memory.readWord a) := by
  simp [readWord, Memory.readWord]

@[simp] theorem setFlagged_eq_some (m : Machine) (x : Register) (result : UInt8) (flag : Bool) :
    setFlagged m x.val result flag = some (m.setFlagged x result flag) := by
  simp [setFlagged, Machine.setFlagged]

/-- Flip a point and note whether a lit pixel was hit. -/
def flipPoint (drawn : Frame × Bool) (p : Nat × Nat) : Frame × Bool :=
  (drawn.1.flip p.1 p.2, drawn.1.pixel p.1 p.2 || drawn.2)

theorem drawRow_eq_some (m : Machine) (x y : Nat) (drawn : Frame × Bool) (r : Nat) :
    drawRow m x y drawn r =
      some (((Sprite.columns (m.memory.read (m.index + UInt16.ofNat r))).map
        fun k => (x + k, y + r)).foldl flipPoint drawn) := by
  simp only [drawRow, read_eq_some, toggle_eq_some, Option.bind_eq_bind, Option.bind_some,
    Option.pure_def, List.foldl_map]
  exact List.foldlM_pure

/-- The rows of a sprite are drawn one after the other. -/
theorem points_sprite (m : Machine) (x y : Nat) (n : UInt8) :
    Sprite.points x y (m.sprite n) =
      (List.range n.toNat).flatMap fun r =>
        (Sprite.columns (m.memory.read (m.index + UInt16.ofNat r))).map
          fun k => (x + k, y + r) :=
  Sprite.points_map_range x y _ n.toNat

theorem toggleAll_eq_foldl (f : Frame) (points : List (Nat × Nat)) :
    f.toggleAll points = points.foldl flipPoint (f, false) := rfl

theorem drawRows_eq_some (m : Machine) (x y : Nat) (n : UInt8) :
    (List.range n.toNat).foldlM (drawRow m x y) (m.frame, false) =
      some (m.frame.toggleAll (Sprite.points x y (m.sprite n))) := by
  have rows : drawRow m x y = fun drawn r => some (((Sprite.columns (m.memory.read
      (m.index + UInt16.ofNat r))).map fun k => (x + k, y + r)).foldl flipPoint drawn) :=
    funext fun drawn => funext fun r => drawRow_eq_some m x y drawn r
  -- The points are flipped in the same order, so the flag is the same too.
  rw [rows, toggleAll_eq_foldl, points_sprite, List.foldl_flatMap]
  exact List.foldlM_pure

theorem drawSprite_eq_some (m : Machine) (x y : Register) (n : UInt8) :
    (drawSprite m x.val y.val n).map Machine.quiet = some (m.drawSprite x y n) := by
  simp [drawSprite, Machine.drawSprite, drawRows_eq_some]

theorem decimal_eq_some (memory : Memory) (a : UInt16) (b : UInt8) :
    storeDecimal memory a b = some (Machine.decimalAt memory a b) := by
  simp [storeDecimal, Machine.decimalAt]

/-- The registers up to and including `x` by their numbers. -/
theorem finRange_filter_le (x : Register) :
    ((List.finRange 16).filter (· ≤ x)).map Fin.val = List.range (x.val + 1) := by
  revert x
  decide

theorem storeRegisters_eq_some (m : Machine) (x : Register) :
    storeRegisters m x.val = some (m.registersStored x) := by
  simp only [storeRegisters, Machine.registersStored, ← finRange_filter_le, List.foldlM_map,
    reg_eq_some, write_eq_some, Option.bind_eq_bind, Option.bind_some]
  exact List.foldlM_pure

/-- The registers when those below `n` have been filled from the index on. -/
def loaded (m : Machine) (n : Nat) : Machine :=
  { m with
    v := Vector.ofFn fun k =>
      if k.val < n then m.memory.read (m.index + UInt16.ofNat k.val) else m.reg k }

theorem loaded_zero (m : Machine) : loaded m 0 = m := by
  have same : (loaded m 0).v = m.v := by
    ext k hk
    simp [loaded, Machine.reg]
  exact congrArg (fun v => { m with v := v }) same

theorem setReg_loaded (m : Machine) (x : Register) :
    (loaded m x.val).setReg x (m.memory.read (m.index + UInt16.ofNat x.val)) =
      loaded m (x.val + 1) := by
  have same : (loaded m x.val).v.set x.val (m.memory.read (m.index + UInt16.ofNat x.val)) x.isLt =
      (loaded m (x.val + 1)).v := by
    ext k hk
    simp only [loaded, Vector.getElem_set, Vector.getElem_ofFn]
    by_cases here : x.val = k
    · simp [here]
    · have below : k < x.val + 1 ↔ k < x.val := by omega
      simp only [here, if_false, below]
  exact congrArg (fun v => { m with v := v }) same

/-- Filling the registers below `n` one after the other. -/
theorem foldlM_loaded (m : Machine) {n : Nat} (h : n ≤ 16) :
    (List.range n).foldlM (fun n k => do
      setReg n k (← read n.memory (n.index + UInt16.ofNat k))) m = some (loaded m n) := by
  induction n with
  | zero => exact congrArg some (loaded_zero m).symm
  | succ n ih =>
    -- Loading a register leaves memory and the index alone, from which the next one is loaded.
    rw [List.range_succ, List.foldlM_append, ih (Nat.le_of_succ_le h)]
    have next := setReg_loaded m ⟨n, h⟩
    have found := setReg_eq_some (loaded m n) ⟨n, h⟩ (m.memory.read (m.index + UInt16.ofNat n))
    simp only [Option.bind_eq_bind, Option.bind_some, List.foldlM_cons, List.foldlM_nil,
      read_eq_some, loaded] at found next ⊢
    rw [found, next]
    rfl

theorem loadRegisters_eq_some (m : Machine) (x : Register) :
    loadRegisters m x.val = some { m with v := m.registersLoaded x } := by
  have all : (loaded m (x.val + 1)).v = m.registersLoaded x := by
    simp only [loaded, Machine.registersLoaded, Fin.le_def, Nat.lt_succ_iff]
  rw [loadRegisters, foldlM_loaded m x.isLt, ← all]
  rfl

/-- **No instruction leaves the arrays of a machine.** -/
@[simp] theorem execute_eq_some (m : Machine) (op : Instruction) :
    execute m op = some (m.execute op) := by
  -- Most instructions only name registers; those with a loop have their own lemma.
  cases op with
  | draw x y n =>
    have drawn := drawSprite_eq_some m x y n
    rw [Option.map_eq_some_iff] at drawn
    obtain ⟨k, drawn, same⟩ := drawn
    simp [execute, Machine.execute, drawn, same]
  | storeDecimal x => simp [execute, Machine.execute, decimal_eq_some]
  | storeRegisters x => simp [execute, Machine.execute, storeRegisters_eq_some]
  | loadRegisters x => simp [execute, Machine.execute, loadRegisters_eq_some]
  | random x nn => simp [execute, Machine.execute, Machine.roll]
  | _ => simp [execute, Machine.execute]

@[simp] theorem executeNext_eq_some (m : Machine) : executeNext m = some m.executeNext := by
  cases decoded : Instruction.decode (m.memory.readWord m.pc) with
  | none => simp [executeNext, Machine.executeNext, decoded]
  | some op =>
    cases done : m.advance.execute op <;>
      simp [executeNext, Machine.executeNext, decoded, done]

/-! ### Turns -/

@[simp] theorem latchKeys_eq_some (m : Machine) (keys : KeySet) :
    latchKeys m keys = some (m.latchKeys keys) := by
  rcases m.running_or_waiting with mode | ⟨x, mode⟩
  · simp [latchKeys, Machine.latchKeys, mode]
  · cases taken : (m.keypad.latch keys).take <;>
      simp [latchKeys, Machine.latchKeys, mode, taken]

@[simp] theorem batched_eq_some (n : Nat) (m : Machine) :
    batched n m = some (Machine.batched n m) := by
  induction n generalizing m with
  | zero => rfl
  | succ n ih =>
    rcases m.running_or_waiting with mode | ⟨x, mode⟩
    · cases failed : m.executeNext.failure <;>
        simp [batched, Machine.batched, mode, failed, ih]
    · simp [batched, Machine.batched, mode]

@[simp] theorem tickTimers_eq_some (m : Machine) : tickTimers m = some m.tickTimers := by
  unfold tickTimers Machine.tickTimers
  simp only [tick_eq_some, Option.bind_eq_bind, Option.bind_some, Option.pure_def]
  split <;> rfl

@[simp] theorem endFrame_eq_some (a : Advance) : endFrame a = some (Machine.endFrame a) := by
  cases failed : a.failure with
  | some f => simp only [endFrame, failed, Option.pure_def]
  | none => simp [endFrame, Machine.endFrame, failed]

@[simp] theorem endTurn_eq_some (b : Beat) (a : Advance) :
    endTurn b a = some (Machine.endTurn b a) := by
  cases b with
  | cycle keys => exact endFrame_eq_some a
  | step keys => rfl

/-- **No turn leaves the arrays of a machine.** -/
@[simp] theorem turn_eq_some (m : Machine) (b : Beat) : turn m b = some (m.turn b) := by
  cases alive : m.fault with
  | some f => simp only [turn, alive, Machine.turn_of_halted alive, Option.pure_def]
  | none =>
    simp only [turn, alive, Machine.turn_of_alive alive, Machine.latchedBatch, latchKeys_eq_some,
      batched_eq_some, endTurn_eq_some, Option.bind_eq_bind, Option.bind_some]

/-! ### Whatever is done to a machine -/

theorem installFont_eq_some (m : Machine) : installFont m = some m.installFont.machine := by
  have fits : Memory.fontStart.toNat + Font.glyphs.size ≤ 4096 := by
    rw [Font.size_glyphs]
    decide
  simp only [installFont, copyInto_eq_some fits, Option.bind_eq_bind, Option.bind_some]
  rfl

theorem install_eq_some (m : Machine) (program : Array UInt8) :
    install m program = some (m.act (.install program)) := by
  unfold install Machine.act Machine.install Memory.install
  by_cases fits : program.size ≤ Memory.programLimit
  · have room : Memory.programStart.toNat + program.size ≤ 4096 :=
      Nat.add_le_of_le_sub' (by decide) fits
    simp only [fits, if_true, copyInto_eq_some room, Option.bind_eq_bind, Option.bind_some,
      Option.pure_def]
  · simp only [fits, if_false, Option.pure_def]

/-- **Nothing that is done to a machine leaves its arrays.** -/
theorem act_eq_some (m : Machine) (a : Act) : act m a = some (m.act a) := by
  cases a with
  | beat b => simp [act, Machine.act]
  | execute op =>
    cases done : m.execute op <;> simp [act, Machine.act, done]
  | installFont => exact installFont_eq_some m
  | install program => exact install_eq_some m program

end Checked

namespace Machine

/-- **What holds of every machine that comes about.**  All addresses that it holds have twelve
bits, no more than sixteen calls are open, an awaited key goes to one of sixteen registers and no
key is fresh meanwhile, and a fault that halted it was met by an instruction.  So nothing that may
be done to it next accesses anything outside of its arrays. -/
theorem Reachable.inBounds {m : Machine} (h : Reachable m) :
    m.pc ≤ 0xFFF ∧ m.index ≤ 0xFFF ∧
      (m.stack.length ≤ 16 ∧ ∀ a ∈ m.stack, a ≤ 0xFFF) ∧
      (∀ x, m.mode = .waiting x → x.val ≤ 15 ∧ m.keypad.fresh = .empty) ∧
      (∀ f, m.fault = some f → f.Halting) ∧
      ∀ a, Checked.act m a = some (m.act a) := by
  have well := h.wellFormed
  refine ⟨well.pc, well.index, ⟨well.depth, well.returns⟩, ?_, well.fault, Checked.act_eq_some m⟩
  intro x waiting
  exact ⟨Nat.le_of_lt_succ x.isLt, well.fresh x waiting⟩

/-- A call to an address of sixteen bits, and a frame that meets the word around the end of
memory. -/
theorem Reachable.inBounds_of_far_call :
    let m := ((blank .standard (.ofFaces fun _ => 0)).act (.execute (.call 0xFFFF))).act
      (.beat (.cycle .empty))
    Reachable m ∧ m.fault = some (.unknownOpcode 0 0xFFF) ∧
      (Fault.unknownOpcode 0 0xFFF).Halting ∧ m.pc ≤ 0xFFF ∧
      Checked.act m .installFont = some (m.act .installFont) := by
  intro m
  have reachable : Reachable m := ((Reachable.built (.blank _ _)).act _).act _
  have halted : m.fault = some (.unknownOpcode 0 0xFFF) := by decide +kernel
  obtain ⟨pc, -, -, -, fault, checked⟩ := reachable.inBounds
  exact ⟨reachable, halted, fault _ halted, pc, checked .installFont⟩

end Machine

end Chip8
