import Chip8.Machine.Execute

/-!
# What one instruction can do

An instruction that succeeds opens a call, closes one, starts a wait for a key, draws a random byte,
or is an ordinary one, which is silent, leaves the call stack, the keypad, the mode, the fault and
the random bytes alone and moves the program counter and the index only to twelve-bit addresses.
Only a return and a call can fail.

* `Machine.outcome_of_ok` : the effects that a successful instruction can have.
* `Machine.execute_eq_error_iff` : when an instruction fails, and with which fault.
* `Machine.executeNext_cases` : the same for the instruction at the program counter.
-/

namespace Chip8

/-- Whether an instruction leaves calls, waits for keys and random bytes alone. -/
def Instruction.ordinary : Instruction → Bool
  | .call _ | .ret | .waitForKey _ | .random .. => false
  | _ => true

namespace Machine

/-- What an ordinary instruction keeps. -/
structure Keeps (m n : Machine) : Prop where
  tuning : n.tuning = m.tuning
  stack : n.stack = m.stack
  keypad : n.keypad = m.keypad
  mode : n.mode = m.mode
  fault : n.fault = m.fault
  dice : n.dice = m.dice
  /-- The program counter stays or is set to a wrapped address. -/
  pc : n.pc = m.pc ∨ ∃ a, n.pc = Memory.wrap a
  /-- The index stays or is set to a wrapped address. -/
  index : n.index = m.index ∨ ∃ a, n.index = Memory.wrap a

/-- The effects that a successful instruction can have. -/
inductive Outcome (m : Machine) : Instruction → Effect → Prop where
  /-- A call that finds room on the call stack. -/
  | call (nnn : UInt16) (room : m.stack.length < stackDepth) :
      Outcome m (.call nnn) ⟨{ m with stack := m.pc :: m.stack, pc := Memory.wrap nnn }, []⟩
  /-- A return to an open call. -/
  | ret (a : UInt16) (rest : List UInt16) (top : m.stack = a :: rest) :
      Outcome m .ret ⟨{ m with stack := rest, pc := a }, []⟩
  /-- The start of a wait. -/
  | wait (x : Register) :
      Outcome m (.waitForKey x) ⟨{ m with keypad := m.keypad.forget, mode := .waiting x },
        [.notice (.awaitingKey x)]⟩
  /-- A random byte. -/
  | roll (x : Register) (mask : UInt8) :
      Outcome m (.random x mask)
        ⟨{ m with dice := m.dice.next }.setReg x (m.dice.top &&& mask), [.draw m.dice.top]⟩
  /-- An ordinary instruction. -/
  | ordinary {op : Instruction} {n : Machine} (h : op.ordinary = true) (keeps : Keeps m n) :
      Outcome m op ⟨n, []⟩

theorem quiet_eq_ok_iff {m : Machine} {e : Effect} : m.quiet = .ok e ↔ e = ⟨m, []⟩ := by
  simp only [quiet, Except.ok.injEq]
  exact eq_comm

/-! ### Ordinary instructions -/

variable {m : Machine} {op : Instruction}

theorem Keeps.refl (m : Machine) : Keeps m m :=
  ⟨rfl, rfl, rfl, rfl, rfl, rfl, .inl rfl, .inl rfl⟩

theorem keeps_setReg (x : Register) (b : UInt8) : Keeps m (m.setReg x b) :=
  ⟨rfl, rfl, rfl, rfl, rfl, rfl, .inl rfl, .inl rfl⟩

theorem keeps_setFlagged (x : Register) (b : UInt8) (flag : Bool) :
    Keeps m (m.setFlagged x b flag) :=
  ⟨rfl, rfl, rfl, rfl, rfl, rfl, .inl rfl, .inl rfl⟩

theorem keeps_advance : Keeps m m.advance :=
  ⟨rfl, rfl, rfl, rfl, rfl, rfl, .inr ⟨_, rfl⟩, .inl rfl⟩

theorem outcome_of_quiet {n : Machine} {e : Effect} (h : n.quiet = .ok e)
    (ordinary : op.ordinary = true) (keeps : Keeps m n) : Outcome m op e := by
  rw [quiet_eq_ok_iff.1 h]
  exact .ordinary ordinary keeps

theorem outcome_of_skipIf {condition : Bool} {e : Effect} (h : m.skipIf condition = .ok e)
    (ordinary : op.ordinary = true) : Outcome m op e := by
  unfold skipIf at h
  split at h
  · exact outcome_of_quiet h ordinary keeps_advance
  · exact outcome_of_quiet h ordinary (.refl m)

/-! ### Outcomes -/

/-- **What a successful instruction can do.** -/
theorem outcome_of_ok {e : Effect} (h : m.execute op = .ok e) :
    Outcome m op e := by
  cases op with
  | call nnn =>
    simp only [execute, pushCall] at h
    split at h
    · rename_i room
      rw [quiet_eq_ok_iff.1 h]
      exact .call nnn room
    · cases h
  | ret =>
    simp only [execute, popCall] at h
    split at h
    · cases h
    · rename_i a rest top
      rw [quiet_eq_ok_iff.1 h]
      exact .ret a rest top
  | waitForKey x =>
    cases h
    exact .wait x
  | random x mask =>
    cases h
    exact .roll x mask
  -- All others are ordinary: they skip, set registers, jump, move the index, or touch what
  -- `Keeps` does not speak of.
  | skipIfByte | skipUnlessByte | skipIfSame | skipUnlessSame | skipIfKey | skipUnlessKey =>
    exact outcome_of_skipIf h rfl
  | setByte | addByte | copy | or | and | xor | readDelay =>
    exact outcome_of_quiet h rfl (keeps_setReg _ _)
  | add | subtract | shiftRight | subtractFrom | shiftLeft =>
    exact outcome_of_quiet h rfl (keeps_setFlagged _ _ _)
  | jump | jumpOffset =>
    exact outcome_of_quiet h rfl ⟨rfl, rfl, rfl, rfl, rfl, rfl, .inr ⟨_, rfl⟩, .inl rfl⟩
  | setIndex | addIndex | pointAtGlyph =>
    exact outcome_of_quiet h rfl ⟨rfl, rfl, rfl, rfl, rfl, rfl, .inl rfl, .inr ⟨_, rfl⟩⟩
  | draw | clearScreen | setDelay | setSound | storeDecimal | storeRegisters | loadRegisters =>
    exact outcome_of_quiet h rfl ⟨rfl, rfl, rfl, rfl, rfl, rfl, .inl rfl, .inl rfl⟩

/-- **When an instruction fails**: a return without an open call, and a call with as many open
calls as there may be. -/
theorem execute_eq_error_iff {f : Fault} :
    m.execute op = .error f ↔
      (op = .ret ∧ m.stack = [] ∧ f = .stackUnderflow m.currentAddress) ∨
      ((∃ nnn, op = .call nnn) ∧ stackDepth ≤ m.stack.length ∧
        f = .stackOverflow m.currentAddress) := by
  constructor
  · intro h
    cases op with
    | ret =>
      simp only [execute, popCall] at h
      split at h
      · rename_i empty
        cases h
        exact .inl ⟨rfl, empty, rfl⟩
      · cases h
    | call nnn =>
      simp only [execute, pushCall] at h
      split at h
      · cases h
      · rename_i full
        cases h
        exact .inr ⟨⟨nnn, rfl⟩, Nat.not_lt.1 full, rfl⟩
    | skipIfByte | skipUnlessByte | skipIfSame | skipUnlessSame | skipIfKey | skipUnlessKey =>
      simp only [execute, skipIf] at h
      split at h <;> cases h
    | _ => cases h
  · rintro (⟨rfl, empty, rfl⟩ | ⟨⟨nnn, rfl⟩, full, rfl⟩)
    · simp only [execute, popCall, empty]
    · simp only [execute, pushCall, Nat.not_lt.2 full, if_false]

/-! ### The instruction at the program counter -/

/-- The word at the program counter. -/
def nextWord (m : Machine) : UInt16 := m.memory.readWord m.pc

/-- The instruction at the program counter, if the word there is one. -/
def nextOp (m : Machine) : Option Instruction := Instruction.decode m.nextWord

theorem executeNext_of_none (h : m.nextOp = none) :
    m.executeNext = ⟨m.advance, [], some (.unknownOpcode m.nextWord m.pc)⟩ := by
  unfold nextOp nextWord at h
  simp only [executeNext, h, nextWord]

theorem executeNext_of_ok {e : Effect} (h : m.nextOp = some op)
    (ok : m.advance.execute op = .ok e) :
    m.executeNext = ⟨e.machine, .notice (.fetched m.pc m.nextWord op) :: e.events, none⟩ := by
  unfold nextOp nextWord at h
  simp only [executeNext, h, ok, nextWord]

theorem executeNext_of_error {f : Fault} (h : m.nextOp = some op)
    (error : m.advance.execute op = .error f) :
    m.executeNext =
      ⟨m.advance, [.notice (.fetched m.pc m.nextWord op)], some f⟩ := by
  unfold nextOp nextWord at h
  simp only [executeNext, h, error, nextWord]

/-- The next instruction fails and leaves the machine past it, or it succeeds. -/
theorem executeNext_cases (m : Machine) :
    (∃ f said, m.executeNext = ⟨m.advance, said, some f⟩ ∧
      ((m.nextOp = none ∧ said = [] ∧ f = .unknownOpcode m.nextWord m.pc) ∨
        ∃ op, m.nextOp = some op ∧ said = [.notice (.fetched m.pc m.nextWord op)] ∧
          m.advance.execute op = .error f)) ∨
    (∃ op e, m.nextOp = some op ∧ Outcome m.advance op e ∧
      m.executeNext =
        ⟨e.machine, .notice (.fetched m.pc m.nextWord op) :: e.events, none⟩) := by
  cases next : m.nextOp with
  | none => exact .inl ⟨_, [], executeNext_of_none next, .inl ⟨rfl, rfl, rfl⟩⟩
  | some op =>
    cases done : m.advance.execute op with
    | error f => exact .inl ⟨f, _, executeNext_of_error next done, .inr ⟨op, rfl, rfl, done⟩⟩
    | ok e => exact .inr ⟨op, e, rfl, outcome_of_ok done, executeNext_of_ok next done⟩

/-- **When the next instruction fails**: if the word is none, or if the instruction itself fails. -/
theorem failure_executeNext_iff {f : Fault} :
    m.executeNext.failure = some f ↔
      (m.nextOp = none ∧ f = .unknownOpcode m.nextWord m.pc) ∨
      ∃ op, m.nextOp = some op ∧ m.advance.execute op = .error f := by
  constructor
  · intro h
    rcases executeNext_cases m with
      ⟨g, said, failed, ⟨none, -, cause⟩ | ⟨op, next, -, error⟩⟩ | ⟨op, e, -, -, done⟩
    · rw [failed] at h
      cases h
      exact .inl ⟨none, cause⟩
    · rw [failed] at h
      cases h
      exact .inr ⟨op, next, error⟩
    · rw [done] at h
      cases h
  · rintro (⟨none, rfl⟩ | ⟨op, next, error⟩)
    · rw [executeNext_of_none none]
    · rw [executeNext_of_error next error]

/-! ### What every instruction keeps -/

theorem Outcome.tuning {e : Effect} (h : Outcome m op e) : e.machine.tuning = m.tuning := by
  cases h with
  | ordinary _ keeps => exact keeps.tuning
  | _ => rfl

theorem Outcome.fault {e : Effect} (h : Outcome m op e) : e.machine.fault = m.fault := by
  cases h with
  | ordinary _ keeps => exact keeps.fault
  | _ => rfl

theorem tuning_executeNext (m : Machine) : m.executeNext.machine.tuning = m.tuning := by
  rcases executeNext_cases m with ⟨f, said, failed, -⟩ | ⟨op, e, -, outcome, done⟩
  · rw [failed]
    rfl
  · rw [done]
    exact outcome.tuning

theorem fault_executeNext (m : Machine) : m.executeNext.machine.fault = m.fault := by
  rcases executeNext_cases m with ⟨f, said, failed, -⟩ | ⟨op, e, -, outcome, done⟩
  · rw [failed]
    rfl
  · rw [done]
    exact outcome.fault

/-- An instruction that fails leaves the machine past it and else as it was. -/
theorem machine_of_failure {f : Fault} (h : m.executeNext.failure = some f) :
    m.executeNext.machine = m.advance := by
  rcases executeNext_cases m with ⟨g, said, failed, -⟩ | ⟨op, e, -, -, done⟩
  · rw [failed]
  · rw [done] at h
    cases h

/-- No instruction shows the picture. -/
theorem frame?_executeNext (m : Machine) : m.executeNext.events.filterMap Event.frame? = [] := by
  rcases executeNext_cases m with
    ⟨f, said, failed, ⟨-, rfl, -⟩ | ⟨op, -, rfl, -⟩⟩ | ⟨op, e, -, outcome, done⟩
  · rw [failed]
    rfl
  · rw [failed]
    rfl
  · rw [done]
    cases outcome <;> rfl

end Machine

end Chip8
