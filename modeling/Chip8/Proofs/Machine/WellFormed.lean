import Chip8.Proofs.Machine.Ending
import Chip8.Proofs.Machine.Runs

/-!
# Well-formed machines

Addresses get into a machine in many ways: as operands, as sums with a register, from the call
stack, by counting up.  `Machine.WellFormed` says that all that are held have twelve bits, that the
call stack never holds more than its depth, that no key is fresh while one is awaited, and that a
machine is only ever halted by a fault that an instruction met.

* `Machine.WellFormed.executeNext`, `Machine.WellFormed.turn`, `Machine.WellFormed.act` : whatever
  is done to a well-formed machine leaves it well formed.
* `Machine.Reachable.wellFormed` : so every reachable machine is well formed.
-/

namespace Chip8

/-- The faults that halt a machine, at a twelve-bit address; the word of an unknown instruction is
indeed none. -/
def Fault.Halting : Fault → Prop
  | .unknownOpcode word address => Instruction.decode word = none ∧ address ≤ 0xFFF
  | .stackOverflow address | .stackUnderflow address => address ≤ 0xFFF
  | .programTooLarge .. => False

namespace Machine

/-- What holds of every machine that comes about. -/
structure WellFormed (m : Machine) : Prop where
  pc : m.pc ≤ 0xFFF
  index : m.index ≤ 0xFFF
  /-- No more calls are open than may be. -/
  depth : m.stack.length ≤ stackDepth
  /-- Return addresses are twelve-bit addresses. -/
  returns : ∀ a ∈ m.stack, a ≤ 0xFFF
  /-- No key is fresh while one is awaited. -/
  fresh : ∀ x, m.mode = .waiting x → m.keypad.fresh = .empty
  /-- The machine was halted by a fault that an instruction met. -/
  fault : ∀ f, m.fault = some f → f.Halting

variable {m n : Machine}

/-- There is room for another call unless sixteen are open. -/
theorem WellFormed.full_iff (h : WellFormed m) :
    stackDepth ≤ m.stack.length ↔ m.stack.length = 16 :=
  ⟨fun least => Nat.le_antisymm h.depth least, fun same => Nat.le_of_eq same.symm⟩

/-! ### Instructions -/

theorem WellFormed.keeps (h : WellFormed m) (keeps : Keeps m n) : WellFormed n where
  pc := by
    rcases keeps.pc with same | ⟨a, wrapped⟩
    · exact same ▸ h.pc
    · exact wrapped ▸ Memory.wrap_le a
  index := by
    rcases keeps.index with same | ⟨a, wrapped⟩
    · exact same ▸ h.index
    · exact wrapped ▸ Memory.wrap_le a
  depth := keeps.stack ▸ h.depth
  returns := keeps.stack ▸ h.returns
  fresh x waiting := keeps.keypad ▸ h.fresh x (keeps.mode ▸ waiting)
  fault := keeps.fault ▸ h.fault

theorem WellFormed.advance (h : WellFormed m) : WellFormed m.advance :=
  h.keeps keeps_advance

/-- **An instruction leaves a well-formed machine well formed.** -/
theorem WellFormed.outcome (h : WellFormed m) {op : Instruction} {e : Effect}
    (outcome : Outcome m op e) : WellFormed e.machine := by
  cases outcome with
  | call nnn room =>
    -- The new return address is the program counter, and so has twelve bits.
    refine { h with pc := Memory.wrap_le nnn, depth := room, returns := ?_ }
    rintro a (_ | ⟨_, older⟩)
    · exact h.pc
    · exact h.returns a older
  | ret a rest top =>
    -- The new program counter was on the call stack, and so has twelve bits.
    have held : ∀ b ∈ a :: rest, b ≤ 0xFFF := top ▸ h.returns
    have deep : (a :: rest).length ≤ stackDepth := top ▸ h.depth
    exact { h with
      pc := held a List.mem_cons_self
      depth := Nat.le_of_succ_le deep
      returns := fun b older => held b (List.mem_cons_of_mem a older) }
  | wait x => exact { h with fresh := fun _ _ => rfl }
  | roll x mask => exact { h with }
  | ordinary _ keeps => exact h.keeps keeps

/-- The instruction that was fetched last lies two cells back, also around the end of memory. -/
theorem currentAddress_advance (h : m.pc ≤ 0xFFF) : m.advance.currentAddress = m.pc := by
  have bound : m.pc.toNat ≤ 0xFFF := UInt16.le_iff_toNat_le.1 h
  apply UInt16.toNat_inj.1
  simp only [currentAddress, advance, Memory.toNat_wrap, UInt16.toNat_sub, UInt16.toNat_add]
  have two : (2 : UInt16).toNat = 2 := rfl
  omega

theorem currentAddress_le (m : Machine) : m.currentAddress ≤ 0xFFF :=
  Memory.wrap_le _

/-- An instruction that fails halts the machine by a fault of its own kind. -/
theorem halting_of_error {op : Instruction} {f : Fault} (h : m.execute op = .error f) :
    f.Halting := by
  rcases execute_eq_error_iff.1 h with ⟨-, -, rfl⟩ | ⟨-, -, rfl⟩
  · exact currentAddress_le m
  · exact currentAddress_le m

theorem WellFormed.executeNext (h : WellFormed m) : WellFormed m.executeNext.machine := by
  rcases executeNext_cases m with ⟨f, said, failed, -⟩ | ⟨op, e, -, outcome, done⟩
  · rw [failed]
    exact h.advance
  · rw [done]
    exact h.advance.outcome outcome

theorem WellFormed.halting (h : WellFormed m) {f : Fault}
    (failed : m.executeNext.failure = some f) : f.Halting := by
  rcases executeNext_cases m with
    ⟨g, said, same, ⟨none, -, rfl⟩ | ⟨op, -, -, error⟩⟩ | ⟨op, e, -, -, done⟩
  · rw [same] at failed
    cases failed
    exact ⟨none, h.pc⟩
  · rw [same] at failed
    cases failed
    exact halting_of_error error
  · rw [done] at failed
    cases failed

/-! ### Turns -/

theorem WellFormed.latchKeys (h : WellFormed m) (keys : KeySet) :
    WellFormed (m.latchKeys keys).machine where
  pc := (idle_latchKeys m keys).pc ▸ h.pc
  index := (idle_latchKeys m keys).index ▸ h.index
  depth := (idle_latchKeys m keys).stack ▸ h.depth
  returns := (idle_latchKeys m keys).stack ▸ h.returns
  fresh _ waiting := fresh_latchKeys waiting
  fault := (idle_latchKeys m keys).fault ▸ h.fault

theorem WellFormed.batched (h : WellFormed m) (n : Nat) : WellFormed (batched n m).machine :=
  batched_invariant (fun _ h _ => h.executeNext) n h

theorem WellFormed.halting_batched (h : WellFormed m) {n : Nat} {f : Fault}
    (failed : (Machine.batched n m).failure = some f) : f.Halting := by
  induction n generalizing m with
  | zero => cases failed
  | succ n ih =>
    rcases m.running_or_waiting with mode | ⟨x, mode⟩
    · cases first : m.executeNext.failure with
      | some g =>
        rw [batched_succ_of_failure mode first] at failed
        exact h.halting failed
      | none =>
        rw [batched_succ_of_ok mode first] at failed
        exact ih h.executeNext failed
    · rw [batched_of_waiting mode] at failed
      cases failed

/-- The machine that a batch leaves, halted if the batch failed, is well formed. -/
theorem WellFormed.settled_latchedBatch (h : WellFormed m) (n : Nat) (keys : KeySet) :
    WellFormed (latchedBatch n m keys).settled := by
  have left := (h.latchKeys keys).batched n
  cases failed : (latchedBatch n m keys).failure with
  | some f =>
    rw [Advance.settled_of_failure failed]
    refine { left with fault := fun g same => ?_ }
    cases same
    exact (h.latchKeys keys).halting_batched failed
  | none =>
    rw [Advance.settled_of_ok failed]
    exact left

/-- **A turn leaves a well-formed machine well formed.** -/
theorem WellFormed.turn (h : WellFormed m) (b : Beat) : WellFormed (m.turn b).machine := by
  cases alive : m.fault with
  | some f =>
    rw [turn_of_halted alive]
    exact h
  | none =>
    rw [turn_of_alive alive]
    have left := h.settled_latchedBatch (m.quota b) b.keys
    cases b with
    | step keys =>
      simp only [endTurn, machine_endStep]
      exact left
    | cycle keys =>
      simp only [endTurn]
      rw [machine_endFrame ((fault_latchedBatch _ m _).trans alive)]
      exact { left with }

theorem WellFormed.fetches (h : WellFormed m) (n : Nat) : ∀ k ∈ fetches n m, WellFormed k :=
  fun k mem => (forall_fetches (fun _ h _ => h.executeNext) n h k mem).1

theorem WellFormed.trail (h : WellFormed m) (bs : List Beat) : ∀ k ∈ m.trail bs, WellFormed k := by
  induction bs generalizing m with
  | nil => exact nofun
  | cons b bs ih =>
    refine List.forall_mem_append.2 ⟨?_, ih (h.turn b)⟩
    unfold fetched
    split
    · exact nofun
    · exact (h.latchKeys b.keys).fetches (m.quota b)

/-! ### Whatever is done to a machine -/

theorem WellFormed.memory (h : WellFormed m) (memory : Memory) :
    WellFormed { m with memory := memory } :=
  { h with }

theorem WellFormed.installFont (h : WellFormed m) : WellFormed m.installFont.machine :=
  h.memory _

/-- A program that was put into memory changed nothing else. -/
theorem machine_install {program : Array UInt8} {e : Effect} (h : m.install program = .ok e) :
    ∃ memory, e.machine = { m with memory := memory } := by
  unfold install at h
  split at h
  · cases h
    exact ⟨_, rfl⟩
  · cases h

theorem WellFormed.install (h : WellFormed m) {program : Array UInt8} {e : Effect}
    (ok : m.install program = .ok e) : WellFormed e.machine := by
  obtain ⟨memory, same⟩ := machine_install ok
  rw [same]
  exact h.memory memory

/-- **Whatever is done to a well-formed machine leaves it well formed.** -/
theorem WellFormed.act (h : WellFormed m) (a : Act) : WellFormed (m.act a) := by
  cases a with
  | beat b => exact h.turn b
  | execute op =>
    simp only [Machine.act]
    split
    · rename_i done
      exact h.outcome (outcome_of_ok done)
    · exact h
  | installFont => exact h.installFont
  | install program =>
    simp only [Machine.act]
    split
    · rename_i done
      exact h.install done
    · exact h

theorem wellFormed_blank (tuning : Tuning) (dice : Dice) : WellFormed (blank tuning dice) where
  pc := show Memory.programStart ≤ 0xFFF by decide
  index := show (0 : UInt16) ≤ 0xFFF by decide
  depth := Nat.zero_le _
  returns := nofun
  fresh := nofun
  fault := nofun

/-- A machine that was built is a blank one with something in memory. -/
theorem blank_of_built (h : Built m) :
    ∃ tuning dice memory, m = { blank tuning dice with memory := memory } := by
  obtain ⟨said, born⟩ := h
  cases born with
  | blank tuning dice => exact ⟨tuning, dice, .zero, rfl⟩
  | @ofProgram dice program e h =>
    unfold ofProgram at h
    cases installed : (blank .standard dice).installFont.machine.install program with
    | error f => simp [installed, Except.map] at h
    | ok loaded =>
      obtain ⟨memory, same⟩ := machine_install installed
      simp only [installed, Except.map, Except.ok.injEq] at h
      exact ⟨.standard, dice, memory, h ▸ same⟩
  | @assemble p said m h =>
    unfold Parts.assemble at h
    split at h
    · cases h
    · cases h
    · rename_i dice program _ _
      simp only at h
      split at h
      · cases h
      · rename_i installed
        obtain ⟨memory, same⟩ := machine_install installed
        cases h
        exact ⟨p.tuning, dice, memory, same⟩

theorem wellFormed_of_built (h : Built m) : WellFormed m := by
  obtain ⟨tuning, dice, memory, rfl⟩ := blank_of_built h
  exact (wellFormed_blank tuning dice).memory memory

/-- **Every reachable machine is well formed.** -/
theorem Reachable.wellFormed (h : Reachable m) : WellFormed m := by
  induction h with
  | built h => exact wellFormed_of_built h
  | act _ a ih => exact ih.act a

end Machine

end Chip8
