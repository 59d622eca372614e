import Mathlib.Logic.Function.Iterate
import Chip8.Proofs.Instruction.Words
import Chip8.Proofs.Memory.Words
import Chip8.Proofs.Machine.Halting

/-!
# Faults

Whether the next instruction fails, and how, can be told from the word at the program counter and
the call stack, and an instruction that fails only moves the program counter.  A frame ends at the
first instruction that fails and keeps what was done before it
(`Machine.Reachable.faults_are_atomic`).

* `Machine.WellFormed.failure_iff` : the three ways in which the next instruction can fail.
* `Machine.FailsAt` : the instruction of a batch that is the first to fail.
* `Machine.failure_batched_iff`, `Machine.FailsAt.batched` : a batch fails exactly if there is one,
  and then it is the last that is executed.
-/

namespace Chip8

namespace Instruction

theorem decode_eq_ret_iff {w : UInt16} : decode w = some ret ↔ w = 0x00EE := by
  rw [decode_eq_some_iff]
  exact ⟨fun ⟨_, written⟩ => written.symm, fun same => ⟨trivial, same.symm⟩⟩

theorem decode_eq_call_iff {w : UInt16} : (∃ nnn, decode w = some (call nnn)) ↔ w / 0x1000 = 2 := by
  constructor
  · rintro ⟨nnn, read⟩
    obtain ⟨fits, rfl⟩ := encode_of_decode read
    exact (fields_wordNNN (by decide) fits).1
  · intro first
    refine ⟨fieldNNN w, decode_eq_some_iff.2 ⟨fieldNNN_lt w, ?_⟩⟩
    exact wordNNN_eq w first rfl

end Instruction

namespace Machine

open Instruction (decode)

variable {m : Machine} {f : Fault} {n s : Nat}

/-! ### One instruction -/

/-- **How the next instruction fails**: its word is none, it is a return and no call is open, or it
is a call and as many calls are open as may be. -/
theorem WellFormed.failure_iff (well : WellFormed m) :
    m.executeNext.failure = some f ↔
      (decode m.nextWord = none ∧ f = .unknownOpcode m.nextWord m.pc) ∨
      (m.nextWord = 0x00EE ∧ m.stack = [] ∧ f = .stackUnderflow m.pc) ∨
      (m.nextWord / 0x1000 = 2 ∧ m.stack.length = 16 ∧ f = .stackOverflow m.pc) := by
  rw [failure_executeNext_iff, ← Instruction.decode_eq_ret_iff, ← Instruction.decode_eq_call_iff,
    ← well.full_iff, ← currentAddress_advance well.pc]
  refine or_congr Iff.rfl ?_
  constructor
  · rintro ⟨op, next, error⟩
    rcases execute_eq_error_iff.1 error with ⟨rfl, empty, rfl⟩ | ⟨⟨nnn, rfl⟩, deep, rfl⟩
    · exact .inl ⟨next, empty, rfl⟩
    · exact .inr ⟨⟨nnn, next⟩, deep, rfl⟩
  · rintro (⟨next, empty, rfl⟩ | ⟨⟨nnn, next⟩, deep, rfl⟩)
    · exact ⟨_, next, execute_eq_error_iff.2 (.inl ⟨rfl, empty, rfl⟩)⟩
    · exact ⟨_, next, execute_eq_error_iff.2 (.inr ⟨⟨nnn, rfl⟩, deep, rfl⟩)⟩

/-- The next instruction succeeds if none of the three ways to fail is open. -/
theorem WellFormed.failure_eq_none_iff (well : WellFormed m) :
    m.executeNext.failure = none ↔
      decode m.nextWord ≠ none ∧ ¬ (m.nextWord = 0x00EE ∧ m.stack = []) ∧
        ¬ (m.nextWord / 0x1000 = 2 ∧ m.stack.length = 16) := by
  constructor
  · intro ok
    have never : ∀ f, m.executeNext.failure ≠ some f := fun f failed => by
      rw [ok] at failed
      cases failed
    refine ⟨fun none => ?_, fun ⟨ret, empty⟩ => ?_, fun ⟨call, full⟩ => ?_⟩
    · exact never _ (well.failure_iff.2 (.inl ⟨none, rfl⟩))
    · exact never _ (well.failure_iff.2 (.inr (.inl ⟨ret, empty, rfl⟩)))
    · exact never _ (well.failure_iff.2 (.inr (.inr ⟨call, full, rfl⟩)))
  · rintro ⟨known, opened, room⟩
    cases failed : m.executeNext.failure with
    | none => rfl
    | some f =>
      rcases well.failure_iff.1 failed with ⟨none, -⟩ | ⟨ret, empty, -⟩ | ⟨call, full, -⟩
      · exact (known none).elim
      · exact (opened ⟨ret, empty⟩).elim
      · exact (room ⟨call, full⟩).elim

/-- An instruction that fails moves the program counter past itself, around the end of memory if
need be, and does nothing else. -/
theorem machine_of_failure_eq (h : m.executeNext.failure ≠ none) :
    m.executeNext.machine = { m with pc := UInt16.ofNat ((m.pc.toNat + 2) % 4096) } := by
  obtain ⟨f, failed⟩ := Option.ne_none_iff_exists'.1 h
  have next : Memory.wrap (m.pc + 2) = UInt16.ofNat ((m.pc.toNat + 2) % 4096) :=
    Memory.wrap_add m.pc 2
  rw [machine_of_failure failed, advance, next]

/-! ### Batches -/

/-- The machine after `n` instructions, one after the other. -/
def executed (m : Machine) (n : Nat) : Machine := (fun k => k.executeNext.machine)^[n] m

/-- Of the instructions from `m` on, one after the other, the one behind `n` others is the first
that fails, and none of those starts a wait. -/
structure FailsAt (m : Machine) (n : Nat) (f : Fault) : Prop where
  before : ∀ i < n, (m.executed i).mode = .running ∧ (m.executed i).executeNext.failure = none
  running : (m.executed n).mode = .running
  failure : (m.executed n).executeNext.failure = some f

theorem failsAt_zero_iff :
    m.FailsAt 0 f ↔ m.mode = .running ∧ m.executeNext.failure = some f :=
  ⟨fun h => ⟨h.running, h.failure⟩, fun ⟨running, failed⟩ => ⟨nofun, running, failed⟩⟩

theorem failsAt_succ_iff :
    m.FailsAt (n + 1) f ↔
      m.mode = .running ∧ m.executeNext.failure = none ∧ m.executeNext.machine.FailsAt n f := by
  constructor
  · intro h
    obtain ⟨running, ok⟩ := h.before 0 (Nat.succ_pos n)
    refine ⟨running, ok, fun i less => ?_, h.running, h.failure⟩
    exact h.before (i + 1) (Nat.succ_lt_succ less)
  · rintro ⟨running, ok, later⟩
    refine ⟨fun i less => ?_, later.running, later.failure⟩
    cases i with
    | zero => exact ⟨running, ok⟩
    | succ i => exact later.before i (Nat.lt_of_succ_lt_succ less)

/-- A batch fails exactly if one of its instructions does. -/
theorem failure_batched_iff : (batched s m).failure = some f ↔ ∃ n < s, m.FailsAt n f := by
  induction s generalizing m with
  | zero => exact ⟨nofun, fun ⟨n, less, _⟩ => (Nat.not_lt_zero n less).elim⟩
  | succ s ih =>
    -- The first instruction is the one that fails, or it is one of those that follow.
    have first : (∃ n < s + 1, m.FailsAt n f) ↔
        m.FailsAt 0 f ∨ ∃ n < s, m.FailsAt (n + 1) f := by
      constructor
      · rintro ⟨n, less, fails⟩
        cases n with
        | zero => exact .inl fails
        | succ n => exact .inr ⟨n, Nat.lt_of_succ_lt_succ less, fails⟩
      · rintro (fails | ⟨n, less, fails⟩)
        · exact ⟨0, Nat.succ_pos s, fails⟩
        · exact ⟨n + 1, Nat.succ_lt_succ less, fails⟩
    rw [first, failsAt_zero_iff]
    simp only [failsAt_succ_iff]
    rcases m.running_or_waiting with mode | ⟨x, mode⟩
    · cases failed : m.executeNext.failure with
      | some g => simp [batched_succ_of_failure mode failed, failed, mode]
      | none => simp [batched_succ_of_ok mode failed, mode, ih]
    · simp [batched_of_waiting mode, mode]

/-- The instruction that fails is the last of its batch. -/
theorem FailsAt.batched (h : m.FailsAt n f) (less : n < s) :
    batched s m =
      ⟨(m.executed n).executeNext.machine,
        (List.range (n + 1)).flatMap fun i => (m.executed i).executeNext.events, some f⟩ := by
  induction n generalizing m s with
  | zero =>
    obtain ⟨s, rfl⟩ := Nat.exists_eq_add_of_le' less
    obtain ⟨running, failed⟩ := failsAt_zero_iff.1 h
    rw [batched_succ_of_failure running failed]
    simp [executed, ← failed]
  | succ n ih =>
    obtain ⟨s, rfl⟩ := Nat.exists_eq_add_of_le' (Nat.zero_lt_of_lt less)
    obtain ⟨running, ok, later⟩ := failsAt_succ_iff.1 h
    have rest := ih later (Nat.lt_of_succ_lt_succ less)
    have seen : ((List.range (n + 2)).flatMap fun i => (m.executed i).executeNext.events) =
        m.executeNext.events ++ (List.range (n + 1)).flatMap fun i =>
          (m.executeNext.machine.executed i).executeNext.events := by
      rw [List.range_succ_eq_map, List.flatMap_cons, List.flatMap_map]
      rfl
    rw [batched_succ_of_ok running ok, rest, seen]
    rfl

theorem FailsAt.latchedBatch {keys : KeySet} (h : (m.latchKeys keys).machine.FailsAt n f)
    (less : n < s) :
    latchedBatch s m keys =
      ⟨((m.latchKeys keys).machine.executed n).executeNext.machine,
        (m.latchKeys keys).events ++ (List.range (n + 1)).flatMap fun i =>
          ((m.latchKeys keys).machine.executed i).executeNext.events,
        some f⟩ := by
  rw [Machine.latchedBatch, h.batched less]

/-! ### Frames -/

/-- The end of a frame whose batch failed. -/
theorem endFrame_of_failure {a : Advance} (h : a.failure = some f) :
    (endFrame a).machine = { a.machine with stale := false, fault := some f } ∧
      (endFrame a).events =
        a.events ++ .silence :: (if a.machine.stale then [.present a.machine.frame] else []) ++
          [.notice (.halted f)] := by
  constructor
  · simp only [endFrame, h, halt, machine_presentFrame]
  · simp only [endFrame, h, halt, events_presentFrame]

/-- **Faults are exact and atomic.**  Let `m` be a reachable machine without a fault.

* Whenever an instruction is executed, at `m` itself or in a frame or a step of it, let `a` be its
  address and `w` its word, the second byte of which lies at the start of memory if `a` is the last
  address.  It fails as an unknown one exactly if `w` is no instruction, by an empty call stack
  exactly if `w` is a return and no call is open, by a full one exactly if `w` is a call and sixteen
  calls are open, and succeeds otherwise.  If it fails then the program counter has moved on by two,
  and nothing else has changed.
* A frame halts the machine exactly if one of the instructions of its batch fails.  Then that is the
  last one that is executed, and the machine is left as the instructions before it left it, apart
  from the program counter, the mark of a stale picture, which is shown, and the fault; no timer
  ticks. -/
theorem Reachable.faults_are_atomic (h : Reachable m) (alive : m.fault = none) :
    (∀ b, ∀ k ∈ m :: m.fetched b,
      let a := k.pc
      let w := k.memory.readWord a
      let next := k.executeNext
      w.toNat = 256 * (k.memory.read a).toNat +
        (k.memory.read (UInt16.ofNat ((a.toNat + 1) % 4096))).toNat ∧
      (next.failure = some (.unknownOpcode w a) ↔ decode w = none) ∧
      (next.failure = some (.stackUnderflow a) ↔ w = 0x00EE ∧ k.stack = []) ∧
      (next.failure = some (.stackOverflow a) ↔ w / 0x1000 = 2 ∧ k.stack.length = 16) ∧
      (next.failure = none ↔
        decode w ≠ none ∧ ¬ (w = 0x00EE ∧ k.stack = []) ∧
          ¬ (w / 0x1000 = 2 ∧ k.stack.length = 16)) ∧
      (next.failure ≠ none →
        next.machine = { k with pc := UInt16.ofNat ((a.toNat + 2) % 4096) })) ∧
    ∀ keys f,
      let start := m.latchKeys keys
      let frame := m.cycle keys
      (frame.status = .halted f ↔ ∃ n < m.tuning.speed, start.machine.FailsAt n f) ∧
      ∀ n < m.tuning.speed, start.machine.FailsAt n f →
        let k := start.machine.executed n
        frame.machine =
          { k with
            pc := UInt16.ofNat ((k.pc.toNat + 2) % 4096)
            stale := false
            fault := some f } ∧
        frame.events =
          start.events ++
            (List.range (n + 1)).flatMap (fun i => (start.machine.executed i).executeNext.events) ++
            .silence :: (if k.stale then [.present k.frame] else []) ++ [.notice (.halted f)] := by
  refine ⟨fun b k mem => ?_, fun keys f => ?_⟩
  · have well : WellFormed k := by
      rcases List.mem_cons.1 mem with rfl | inside
      · exact h.wellFormed
      · exact h.wellFormed.trail [b] k (List.mem_append_left _ inside)
    have word := k.memory.toNat_readWord k.pc
    rw [Memory.wrap_add] at word
    refine ⟨word, ?_, ?_, ?_, well.failure_eq_none_iff, machine_of_failure_eq⟩
    · simp [well.failure_iff, nextWord]
    · simp [well.failure_iff, nextWord]
    · simp [well.failure_iff, nextWord]
  · intro start frame
    have ended : frame = endFrame (latchedBatch m.tuning.speed m keys) := cycle_of_alive alive
    refine ⟨?_, fun n less fails => ?_⟩
    · rw [ended, ← failure_batched_iff]
      exact status_endTurn_eq_halted_iff (.cycle keys) _
    · have batch := fails.latchedBatch less
      rw [machine_of_failure_eq (Option.ne_none_iff_exists'.2 ⟨f, fails.failure⟩)] at batch
      obtain ⟨machine, events⟩ := endFrame_of_failure (congrArg Advance.failure batch)
      rw [← ended, batch] at machine events
      exact ⟨machine, events⟩

/-- A timer is set, and then a jump leads to the last cell, whose word goes on in the first one.
The frame ends there, and the timer has not ticked. -/
theorem Reachable.faults_are_atomic_of_wrapped_word :
    let m := (blank .standard (.ofFaces fun _ => 0)).run
      [.execute (.setByte 0 0xF8), .execute (.setByte 1 0x15), .execute (.setByte 2 0x1F),
        .execute (.setByte 3 0xFF), .execute (.storeRegisters 3), .execute (.setByte 8 5),
        .execute (.jump 0)]
    let fault := Fault.unknownOpcode 0x00F8 0xFFF
    Reachable m ∧ m.fault = none ∧ (m.latchKeys .empty).machine.FailsAt 2 fault ∧
      (m.cycle .empty).machine.pc = 0x001 ∧ (m.cycle .empty).machine.delay.value = 5 := by
  intro m fault
  have reachable : Reachable m := (Reachable.built (.blank _ _)).run _
  have alive : m.fault = none := by decide +kernel
  have fails : (m.latchKeys .empty).machine.FailsAt 2 fault :=
    ⟨by decide +kernel, by decide +kernel, by decide +kernel⟩
  obtain ⟨-, frames⟩ := reachable.faults_are_atomic alive
  obtain ⟨-, halted⟩ := frames .empty fault
  obtain ⟨left, -⟩ := halted 2 (by decide +kernel) fails
  rw [left]
  exact ⟨reachable, alive, fails, by decide +kernel, by decide +kernel⟩

end Machine

end Chip8
