import Mathlib.Data.Fintype.Basic
import Mathlib.Order.Interval.Finset.Fin
import Chip8.Proofs.Machine.Bounds
import Chip8.Proofs.Machine.Drawing
import Chip8.Proofs.Machine.Ports
import Chip8.Proofs.Memory.Storing

/-!
# What an instruction leaves alone

Each instruction changes a few parts of the machine and no others: `Machine.Confined` lists, part by
part, the instructions that may change it, by their patterns.  Of the registers an instruction
changes its targets at most, and of memory exactly the cells that it stores bytes in.

* `Machine.registersStored_eq`, `Machine.decimalAt_eq` : the bytes that are stored, one by one.
* `Machine.confined_of_ok` : an instruction that succeeds keeps to its footprint.
* `Machine.execute_footprint` : so does every instruction, and of the surroundings it only asks for
  random bytes.
-/

namespace Chip8

/-- The registers that an instruction may change. -/
def Instruction.targets : Instruction → Finset Register
  | .setByte x _ | .addByte x _ | .copy x _ | .or x _ | .and x _ | .xor x _ | .random x _
  | .readDelay x => {x}
  | .add x _ | .subtract x _ | .shiftRight x _ | .subtractFrom x _ | .shiftLeft x _ =>
    {x, Machine.flagRegister}
  | .draw .. => {Machine.flagRegister}
  | .loadRegisters x => Finset.Iic x
  | _ => ∅

/-- How many bytes an instruction stores in the cells from the index on. -/
def Instruction.stores : Instruction → Nat
  | .storeDecimal _ => 3
  | .storeRegisters x => x.val + 1
  | _ => 0

namespace Machine

/-- The byte that an instruction stores `k` cells behind the index. -/
def byteStored (m : Machine) : Instruction → Nat → UInt8
  | .storeDecimal x, k => UInt8.ofNat ((m.reg x).toNat / 10 ^ (2 - k) % 10)
  | .storeRegisters _, k => m.reg (Fin.ofNat 16 k)
  | _, _ => 0

/-- Whether an instruction is a skip whose condition holds. -/
def skips (m : Machine) : Instruction → Bool
  | .skipIfByte x nn => m.reg x == nn
  | .skipUnlessByte x nn => m.reg x != nn
  | .skipIfSame x y => m.reg x == m.reg y
  | .skipUnlessSame x y => m.reg x != m.reg y
  | .skipIfKey x => m.keypad.down.has (.ofByte (m.reg x))
  | .skipUnlessKey x => !m.keypad.down.has (.ofByte (m.reg x))
  | _ => false

/-- From `m` to `n` an instruction changed at most its footprint. -/
structure Confined (op : Instruction) (m n : Machine) : Prop where
  picture : op.pattern ∉ ["00E0", "DXYN"] → n.frame = m.frame ∧ n.stale = m.stale := by
    exact fun _ => ⟨rfl, rfl⟩
  stack : op.pattern ∉ ["00EE", "2NNN"] → n.stack = m.stack := by exact fun _ => rfl
  index : op.pattern ∉ ["ANNN", "FX1E", "FX29"] → n.index = m.index := by exact fun _ => rfl
  delay : op.pattern ≠ "FX15" → n.delay = m.delay := by exact fun _ => rfl
  sound : op.pattern ≠ "FX18" → n.sound = m.sound := by exact fun _ => rfl
  /-- Only a wait that starts changes the mode and the fresh keys. -/
  wait : op.pattern ≠ "FX0A" → n.mode = m.mode ∧ n.keypad.fresh = m.keypad.fresh := by
    exact fun _ => ⟨rfl, rfl⟩
  pc : op.pattern ∉ ["00EE", "1NNN", "2NNN", "BNNN"] → m.skips op = false → n.pc = m.pc := by
    exact fun _ _ => rfl
  dice : n.dice = if op.pattern = "CXNN" then m.dice.next else m.dice := by exact rfl
  /-- What no instruction changes. -/
  fixed : n.keypad.down = m.keypad.down ∧ n.fault = m.fault ∧ n.tuning = m.tuning := by
    exact ⟨rfl, rfl, rfl⟩
  registers : ∀ r ∉ op.targets, n.reg r = m.reg r := by exact fun _ _ => rfl
  memory : op.pattern ∉ ["FX33", "FX55"] → n.memory = m.memory := by exact fun _ => rfl
  /-- A cell that nothing is stored in is as it was. -/
  others : ∀ a : UInt16, (∀ k < op.stores, a.toNat % 4096 ≠ (m.index.toNat + k) % 4096) →
    n.memory.read a = m.memory.read a := by exact fun _ _ => rfl
  /-- The cells that something is stored in. -/
  cells : ∀ k < op.stores, n.memory.read (UInt16.ofNat ((m.index.toNat + k) % 4096)) =
    m.byteStored op k := by exact fun k none => absurd none (Nat.not_lt_zero k)

variable {m : Machine} {op : Instruction}

/-! ### Bytes one by one -/

theorem decimalAt_eq (memory : Memory) (a : UInt16) (b : UInt8) :
    decimalAt memory a b =
      memory.store a (fun k => UInt8.ofNat (b.toNat / 10 ^ (2 - k) % 10)) 3 := by
  have digits : b / 100 = UInt8.ofNat (b.toNat / 10 ^ 2 % 10) ∧
      b % 100 / 10 = UInt8.ofNat (b.toNat / 10 ^ 1 % 10) ∧
      b % 10 = UInt8.ofNat (b.toNat / 10 ^ 0 % 10) := by
    have bound := b.toNat_lt
    simp only [← UInt8.toNat_inj, UInt8.toNat_div, UInt8.toNat_mod, UInt8.toNat_ofNat',
      UInt8.reduceToNat]
    omega
  obtain ⟨hundreds, tens, ones⟩ := digits
  have first : a + UInt16.ofNat 0 = a := UInt16.add_zero a
  simp only [decimalAt, hundreds, tens, ones, Memory.store, first]
  rfl

/-- The registers up to and including `x` by their numbers. -/
theorem registersStored_eq (m : Machine) (x : Register) :
    m.registersStored x =
      m.memory.store m.index (fun k => m.reg (Fin.ofNat 16 k)) (x.val + 1) := by
  have upTo (n : Nat) : m.memory.store m.index (fun k => m.reg (Fin.ofNat 16 k)) n =
      (List.range n).foldl (fun memory k =>
        memory.write (m.index + UInt16.ofNat k) (m.reg (Fin.ofNat 16 k))) m.memory := by
    induction n with
    | zero => rfl
    | succ n ih => rw [Memory.store, ih, List.range_succ, List.foldl_append]; rfl
  have same (k : Register) : Fin.ofNat 16 k.val = k := Fin.ofNat_val_eq_self k
  rw [upTo, ← Checked.finRange_filter_le, List.foldl_map]
  simp only [same, registersStored]

theorem stores_le (op : Instruction) : op.stores ≤ 4096 := by
  cases op with
  | storeRegisters x => exact x.isLt.trans (by decide)
  | _ => exact Nat.le_of_ble_eq_true rfl

/-- What is read after an instruction stored its bytes. -/
theorem read_stored (m : Machine) (op : Instruction) :
    let memory := m.memory.store m.index (m.byteStored op) op.stores
    (∀ a : UInt16, (∀ k < op.stores, a.toNat % 4096 ≠ (m.index.toNat + k) % 4096) →
      memory.read a = m.memory.read a) ∧
    ∀ k < op.stores, memory.read (UInt16.ofNat ((m.index.toNat + k) % 4096)) =
      m.byteStored op k := by
  refine ⟨fun a outside => m.memory.read_store_of_outside outside, fun k less => ?_⟩
  exact (Memory.read_add ..).symm.trans (m.memory.read_store (stores_le op) less)

/-! ### Instructions that succeed -/

variable {e : Effect}

/-- A skip whose condition holds passes over one instruction. -/
theorem execute_of_skips (h : m.skips op = true) : m.execute op = m.advance.quiet := by
  cases op with
  | skipIfByte | skipUnlessByte | skipIfSame | skipUnlessSame | skipIfKey | skipUnlessKey =>
    exact if_pos h
  | _ => cases h

theorem skipIf_cases {condition : Bool} (h : m.skipIf condition = .ok e) :
    condition = true ∧ e = ⟨m.advance, []⟩ ∨ condition = false ∧ e = ⟨m, []⟩ := by
  cases condition with
  | true => exact .inl ⟨rfl, quiet_eq_ok_iff.1 h⟩
  | false => exact .inr ⟨rfl, quiet_eq_ok_iff.1 h⟩

/-- **An instruction that succeeds keeps to its footprint.** -/
theorem confined_of_ok (h : m.execute op = .ok e) : Confined op m e.machine := by
  cases op with
  | clearScreen =>
    rw [quiet_eq_ok_iff.1 h]
    exact { picture := fun other => (other (by simp [Instruction.pattern])).elim }
  | draw x y n =>
    rw [execute_draw_eq] at h
    cases h
    exact
      { picture := fun other => (other (by simp [Instruction.pattern])).elim
        registers := fun _ other => reg_setReg_of_ne _ _ (Finset.notMem_singleton.1 other) }
  | ret =>
    simp only [execute, popCall] at h
    split at h
    · cases h
    · rw [quiet_eq_ok_iff.1 h]
      exact
        { stack := fun other => (other (by simp [Instruction.pattern])).elim
          pc := fun other => (other (by simp [Instruction.pattern])).elim }
  | call nnn =>
    simp only [execute, pushCall] at h
    split at h
    · rw [quiet_eq_ok_iff.1 h]
      exact
        { stack := fun other => (other (by simp [Instruction.pattern])).elim
          pc := fun other => (other (by simp [Instruction.pattern])).elim }
    · cases h
  | jump | jumpOffset =>
    rw [quiet_eq_ok_iff.1 h]
    exact { pc := fun other => (other (by simp [Instruction.pattern])).elim }
  | setIndex | addIndex | pointAtGlyph =>
    rw [quiet_eq_ok_iff.1 h]
    exact { index := fun other => (other (by simp [Instruction.pattern])).elim }
  | setDelay =>
    rw [quiet_eq_ok_iff.1 h]
    exact { delay := fun other => (other rfl).elim }
  | setSound =>
    rw [quiet_eq_ok_iff.1 h]
    exact { sound := fun other => (other rfl).elim }
  | waitForKey =>
    cases h
    exact { wait := fun other => (other rfl).elim }
  | random x nn =>
    cases h
    exact
      { registers := fun _ other => reg_setReg_of_ne _ _ (Finset.notMem_singleton.1 other) }
  | setByte | addByte | copy | or | and | xor | readDelay =>
    rw [quiet_eq_ok_iff.1 h]
    exact
      { registers := fun _ other => reg_setReg_of_ne _ _ (Finset.notMem_singleton.1 other) }
  | add | subtract | shiftRight | subtractFrom | shiftLeft =>
    rw [quiet_eq_ok_iff.1 h]
    exact
      { registers := fun r other => by
          simp only [Instruction.targets, Finset.mem_insert, Finset.mem_singleton, not_or] at other
          rw [reg_setFlagged, if_neg fun same => other.1 same.symm,
            if_neg fun same => other.2 same.symm] }
  | loadRegisters x =>
    rw [quiet_eq_ok_iff.1 h]
    exact
      { registers := fun r other => by
          have above : ¬ r ≤ x := fun below => other (Finset.mem_Iic.2 below)
          simp [reg, registersLoaded, above] }
  | storeDecimal x =>
    rw [quiet_eq_ok_iff.1 h, decimalAt_eq]
    exact
      { memory := fun other => (other (by simp [Instruction.pattern])).elim
        others := (m.read_stored (.storeDecimal x)).1
        cells := (m.read_stored (.storeDecimal x)).2 }
  | storeRegisters x =>
    rw [quiet_eq_ok_iff.1 h, registersStored_eq]
    exact
      { memory := fun other => (other (by simp [Instruction.pattern])).elim
        others := (m.read_stored (.storeRegisters x)).1
        cells := (m.read_stored (.storeRegisters x)).2 }
  | skipIfByte | skipUnlessByte | skipIfSame | skipUnlessSame | skipIfKey | skipUnlessKey =>
    rcases skipIf_cases h with ⟨holds, rfl⟩ | ⟨-, rfl⟩
    · exact { pc := fun _ fails => Bool.noConfusion (holds.symm.trans fails) }
    · exact {}

/-! ### All instructions -/

theorem confined_of_error {f : Fault} (h : m.execute op = .error f) : Confined op m m := by
  rcases execute_eq_error_iff.1 h with ⟨rfl, -⟩ | ⟨⟨nnn, rfl⟩, -⟩
  · exact {}
  · exact {}

theorem confined_act (m : Machine) (op : Instruction) : Confined op m (m.act (.execute op)) := by
  cases done : m.execute op with
  | ok e => simpa only [act, done] using confined_of_ok done
  | error f => simpa only [act, done] using confined_of_error done

/-- **An instruction changes at most its footprint**, be it that it succeeds or not: each part of
the machine only if its pattern is among those that change it, of the registers only its targets,
and of memory exactly the cells that it stores bytes in.  Of the surroundings it wants nothing but
one random byte, if it is the instruction for that.  Adding a byte and the operations without a flag
leave the flag register alone unless they are told to put their result there. -/
theorem execute_footprint (m : Machine) (op : Instruction) :
    Confined op m (m.act (.execute op)) ∧
      Event.ports (m.said (.execute op)) =
        (if op.pattern = "CXNN" then [.draw m.dice.top] else []) ∧
      ∀ x ≠ flagRegister, ∀ y nn,
        op ∈ [.addByte x nn, .copy x y, .or x y, .and x y, .xor x y] →
          (m.act (.execute op)).reg flagRegister = m.reg flagRegister := by
  have confined := m.confined_act op
  refine ⟨confined, ?_, fun x other y nn mem => confined.registers _ ?_⟩
  · have rolls : op.rolls = true ↔ op.pattern = "CXNN" := by
      cases op <;> simp [Instruction.rolls, Instruction.pattern]
    simp only [← rolls]
    cases done : m.execute op with
    | ok e => simpa only [said, done] using ports_of_ok done
    | error f =>
      simp only [said, done, rolls_of_error done]
      rfl
  · have target : op.targets = {x} := by
      simp only [List.mem_cons, List.not_mem_nil, or_false] at mem
      rcases mem with rfl | rfl | rfl | rfl | rfl <;> rfl
    rw [target, Finset.mem_singleton]
    exact other.symm

end Machine

end Chip8
