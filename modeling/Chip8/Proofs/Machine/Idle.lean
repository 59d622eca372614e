import Chip8.Proofs.Machine.Batch

/-!
# Between two instructions

Besides executing instructions a turn looks at the keyboard, which may answer a wait, lets the
timers tick, and shows the picture.  None of this touches the program counter, the index, the call
stack, memory, the picture or the random bytes.

* `Machine.latchKeys_cases` : looking at the keyboard answers a wait with the least fresh key, or
  leaves the registers and the mode alone.
* `Machine.idle_latchKeys`, `Machine.idle_endFrame`, `Machine.idle_endStep` : what lies between two
  instructions is idle.
-/

namespace Chip8

namespace Machine

/-- What the time between two instructions leaves alone. -/
structure Idle (m n : Machine) : Prop where
  tuning : n.tuning = m.tuning
  index : n.index = m.index
  pc : n.pc = m.pc
  stack : n.stack = m.stack
  memory : n.memory = m.memory
  frame : n.frame = m.frame
  fault : n.fault = m.fault
  dice : n.dice = m.dice

variable {m n k : Machine} {keys : KeySet}

theorem Idle.refl (m : Machine) : Idle m m :=
  ⟨rfl, rfl, rfl, rfl, rfl, rfl, rfl, rfl⟩

theorem Idle.trans (h : Idle m n) (h' : Idle n k) : Idle m k :=
  ⟨h'.tuning.trans h.tuning, h'.index.trans h.index, h'.pc.trans h.pc, h'.stack.trans h.stack,
    h'.memory.trans h.memory, h'.frame.trans h.frame, h'.fault.trans h.fault,
    h'.dice.trans h.dice⟩

/-- The instruction that follows is the same afterwards. -/
theorem Idle.nextOp (h : Idle m n) : n.nextOp = m.nextOp := by
  simp only [Machine.nextOp, nextWord, h.memory, h.pc]

/-! ### Looking at the keyboard -/

theorem latchKeys_of_running (h : m.mode = .running) :
    m.latchKeys keys = ⟨{ m with keypad := m.keypad.latch keys }, [.poll]⟩ := by
  simp only [latchKeys, h]

theorem latchKeys_of_take_none {x : Register} (h : m.mode = .waiting x)
    (none : (m.keypad.latch keys).take = none) :
    m.latchKeys keys = ⟨{ m with keypad := m.keypad.latch keys }, [.poll]⟩ := by
  simp only [latchKeys, h, none]

theorem latchKeys_of_take_some {x : Register} {key : Key} {rest : Keypad}
    (h : m.mode = .waiting x) (some : (m.keypad.latch keys).take = some (key, rest)) :
    m.latchKeys keys =
      ⟨{ m with keypad := rest, mode := .running }.setReg x (UInt8.ofNat key.val),
        [.poll, .notice (.keyStored key x)]⟩ := by
  simp only [latchKeys, h, some]

/-- Looking at the keyboard leaves registers and mode alone, and no key is fresh if a wait goes on,
or it answers a wait with the least fresh key. -/
theorem latchKeys_cases (m : Machine) (keys : KeySet) :
    (m.latchKeys keys = ⟨{ m with keypad := m.keypad.latch keys }, [.poll]⟩ ∧
      ∀ x, m.mode = .waiting x → (m.keypad.latch keys).fresh = .empty) ∨
    ∃ x key rest, m.mode = .waiting x ∧ (m.keypad.latch keys).take = some (key, rest) ∧
      m.latchKeys keys =
        ⟨{ m with keypad := rest, mode := .running }.setReg x (UInt8.ofNat key.val),
          [.poll, .notice (.keyStored key x)]⟩ := by
  rcases m.running_or_waiting with mode | ⟨x, mode⟩
  · refine .inl ⟨latchKeys_of_running mode, ?_⟩
    intro x h
    rw [mode] at h
    cases h
  · cases taken : (m.keypad.latch keys).take with
    | none =>
      exact .inl ⟨latchKeys_of_take_none mode taken, fun _ _ => Keypad.take_eq_none_iff.1 taken⟩
    | some answer =>
      exact .inr ⟨x, answer.1, answer.2, mode, rfl, latchKeys_of_take_some mode taken⟩

theorem idle_latchKeys (m : Machine) (keys : KeySet) : Idle m (m.latchKeys keys).machine := by
  rcases latchKeys_cases m keys with ⟨same, -⟩ | ⟨x, key, rest, -, -, answered⟩
  · rw [same]
    exact ⟨rfl, rfl, rfl, rfl, rfl, rfl, rfl, rfl⟩
  · rw [answered]
    exact ⟨rfl, rfl, rfl, rfl, rfl, rfl, rfl, rfl⟩

/-- The keys that are down afterwards are those that were seen. -/
theorem down_latchKeys (m : Machine) (keys : KeySet) :
    (m.latchKeys keys).machine.keypad.down = keys := by
  rcases latchKeys_cases m keys with ⟨same, -⟩ | ⟨x, key, rest, -, taken, answered⟩
  · rw [same]
    rfl
  · obtain ⟨k, -, pair⟩ := Option.map_eq_some_iff.1 taken
    rw [answered]
    cases pair
    rfl

/-- A wait that goes on after a look at the keyboard has no fresh key. -/
theorem fresh_latchKeys {x : Register} (h : (m.latchKeys keys).machine.mode = .waiting x) :
    (m.latchKeys keys).machine.keypad.fresh = .empty := by
  rcases latchKeys_cases m keys with ⟨same, none⟩ | ⟨y, key, rest, -, -, answered⟩
  · rw [same] at h ⊢
    exact none x h
  · rw [answered] at h
    cases h

theorem frame?_latchKeys (m : Machine) (keys : KeySet) :
    (m.latchKeys keys).events.filterMap Event.frame? = [] := by
  rcases latchKeys_cases m keys with ⟨kept, -⟩ | ⟨x, key, rest, -, -, answered⟩
  · rw [kept]
    rfl
  · rw [answered]
    rfl

theorem frame?_latchedBatch (n : Nat) (m : Machine) (keys : KeySet) :
    (latchedBatch n m keys).events.filterMap Event.frame? = [] := by
  simp only [latchedBatch, List.filterMap_append, frame?_latchKeys, frame?_batched, List.append_nil]

theorem fault_latchedBatch (n : Nat) (m : Machine) (keys : KeySet) :
    (latchedBatch n m keys).machine.fault = m.fault :=
  (fault_batched _ _).trans (idle_latchKeys m keys).fault

theorem tuning_latchedBatch (n : Nat) (m : Machine) (keys : KeySet) :
    (latchedBatch n m keys).machine.tuning = m.tuning :=
  (tuning_batched _ _).trans (idle_latchKeys m keys).tuning

/-! ### The end of a turn -/

theorem idle_tickTimers (m : Machine) : Idle m m.tickTimers.machine := by
  unfold tickTimers
  split <;> exact ⟨rfl, rfl, rfl, rfl, rfl, rfl, rfl, rfl⟩

theorem idle_presentFrame (m : Machine) : Idle m m.presentFrame.machine := by
  unfold presentFrame
  split <;> exact ⟨rfl, rfl, rfl, rfl, rfl, rfl, rfl, rfl⟩

/-- The machine after an advance, halted if the advance failed. -/
def Advance.settled (a : Advance) : Machine :=
  match a.failure with
  | some fault => { a.machine with fault := some fault }
  | none => a.machine

theorem Advance.settled_of_failure {a : Advance} {f : Fault} (h : a.failure = some f) :
    a.settled = { a.machine with fault := some f } := by
  simp only [settled, h]

theorem Advance.settled_of_ok {a : Advance} (h : a.failure = none) : a.settled = a.machine := by
  simp only [settled, h]

theorem Advance.tuning_settled (a : Advance) : a.settled.tuning = a.machine.tuning := by
  unfold settled
  split <;> rfl

theorem idle_endFrame (a : Advance) : Idle a.settled (endFrame a).machine := by
  cases failed : a.failure with
  | some f =>
    -- The fault is the same on both sides, though the picture is shown before it is set.
    have shown := idle_presentFrame a.machine
    simp only [endFrame, Advance.settled, failed, halt]
    exact ⟨shown.tuning, shown.index, shown.pc, shown.stack, shown.memory, shown.frame, rfl,
      shown.dice⟩
  | none =>
    simp only [endFrame, Advance.settled, failed]
    exact (idle_tickTimers _).trans (idle_presentFrame _)

theorem machine_endStep (a : Advance) : (endStep a).machine = a.settled := by
  cases failed : a.failure <;> simp only [endStep, Advance.settled, failed, halt]

end Machine

end Chip8
