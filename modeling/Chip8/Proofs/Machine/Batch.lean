import Chip8.Machine.Cycle
import Chip8.Proofs.Machine.Outcome

/-!
# Batches of instructions

A frame and a single step have one shape: the keyboard is looked at, a batch of instructions is
executed, and the turn is ended.  The batch of a step has one instruction, the batch of a frame as
many as the tuning says.

* `Machine.batch_eq` : the batch of a frame, apart from the events before it, is `Machine.batched`.
* `Machine.cycle_of_alive`, `Machine.step_of_alive` : a frame and a step as a batch and an ending.
* `Machine.batched_invariant` : what each instruction preserves, a batch preserves.
* `Machine.fetches` : the machines at which a batch fetches an instruction.
* `Machine.forall_fetches` : what each instruction preserves holds at all of them.
-/

namespace Chip8

namespace Machine

/-- What a batch of up to `n` instructions leads to. -/
def batched : Nat → Machine → Advance
  | 0, m => ⟨m, [], none⟩
  | n + 1, m =>
    match m.mode with
    | .waiting _ => ⟨m, [], none⟩
    | .running =>
      match m.executeNext.failure with
      | some _ => m.executeNext
      | none =>
        let rest := batched n m.executeNext.machine
        ⟨rest.machine, m.executeNext.events ++ rest.events, rest.failure⟩

/-- The machines at which a batch of up to `n` instructions fetches one. -/
def fetches : Nat → Machine → List Machine
  | 0, _ => []
  | n + 1, m =>
    match m.mode with
    | .waiting _ => []
    | .running =>
      match m.executeNext.failure with
      | some _ => [m]
      | none => m :: fetches n m.executeNext.machine

/-- The end of a frame, when its batch led to `a`. -/
def endFrame (a : Advance) : Turn :=
  match a.failure with
  | some fault =>
    let shown := a.machine.presentFrame
    let last := shown.machine.halt fault
    ⟨last.machine, a.events ++ .silence :: shown.events ++ last.events, .halted fault⟩
  | none =>
    let ticked := a.machine.tickTimers
    let shown := ticked.machine.presentFrame
    ⟨shown.machine, a.events ++ ticked.events ++ ticked.machine.tone :: shown.events,
      shown.machine.status⟩

/-- The end of a single step, when its instruction led to `a`. -/
def endStep (a : Advance) : Turn :=
  match a.failure with
  | some fault =>
    let last := a.machine.halt fault
    ⟨last.machine, a.events ++ last.events, .halted fault⟩
  | none => ⟨a.machine, a.events, a.machine.status⟩

/-- Look at the keyboard and execute up to `n` instructions. -/
def latchedBatch (n : Nat) (m : Machine) (keys : KeySet) : Advance :=
  let latched := m.latchKeys keys
  let rest := batched n latched.machine
  ⟨rest.machine, latched.events ++ rest.events, rest.failure⟩

variable {m : Machine} {keys : KeySet}

theorem running_or_waiting (m : Machine) : m.mode = .running ∨ ∃ x, m.mode = .waiting x := by
  cases m.mode with
  | running => exact .inl rfl
  | waiting x => exact .inr ⟨x, rfl⟩

/-! ### The equations of a batch -/

theorem batched_zero : batched 0 m = ⟨m, [], none⟩ := rfl

theorem batched_of_waiting {n : Nat} {x : Register} (h : m.mode = .waiting x) :
    batched n m = ⟨m, [], none⟩ := by
  cases n with
  | zero => rfl
  | succ n => simp only [batched, h]

theorem batched_succ_of_failure {n : Nat} {f : Fault} (running : m.mode = .running)
    (h : m.executeNext.failure = some f) : batched (n + 1) m = m.executeNext := by
  simp only [batched, running, h]

theorem batched_succ_of_ok {n : Nat} (running : m.mode = .running)
    (h : m.executeNext.failure = none) :
    batched (n + 1) m =
      ⟨(batched n m.executeNext.machine).machine,
        m.executeNext.events ++ (batched n m.executeNext.machine).events,
        (batched n m.executeNext.machine).failure⟩ := by
  simp only [batched, running, h]

theorem batch_eq (n : Nat) (m : Machine) (seen : Array Event) :
    batch n m seen =
      ((batched n m).machine, seen ++ (batched n m).events, (batched n m).failure) := by
  induction n generalizing m seen with
  | zero => simp [batch, batched_zero]
  | succ n ih =>
    cases mode : m.mode with
    | waiting x => simp [batch, batched_of_waiting mode, mode]
    | running =>
      cases failed : m.executeNext.failure with
      | some f => simp [batch, batched_succ_of_failure mode failed, mode, failed]
      | none =>
        -- What was seen is gathered from the left in the loop and from the right in `batched`.
        have joined : seen ++ m.executeNext.events ++ (batched n m.executeNext.machine).events =
            seen ++ (m.executeNext.events ++ (batched n m.executeNext.machine).events) :=
          Array.toList_inj.1 (by simp)
        simp [batch, batched_succ_of_ok mode failed, mode, failed, ih, joined]

/-! ### Frames and steps -/

theorem cycle_of_halted {f : Fault} (h : m.fault = some f) :
    m.cycle keys = ⟨m, [], .halted f⟩ := by
  simp only [cycle, h]

theorem step_of_halted {f : Fault} (h : m.fault = some f) :
    m.step keys = ⟨m, [], .halted f⟩ := by
  simp only [step, h]

/-- A frame of a machine without a fault is a batch and the end of a frame. -/
theorem cycle_of_alive (h : m.fault = none) :
    m.cycle keys = endFrame (latchedBatch m.tuning.speed m keys) := by
  simp only [cycle, h, batch_eq, endFrame, latchedBatch]
  cases (batched m.tuning.speed (m.latchKeys keys).machine).failure with
  | some f => simp
  | none => simp

/-- A step of a machine without a fault is a batch of one instruction and the end of a step. -/
theorem step_of_alive (h : m.fault = none) :
    m.step keys = endStep (latchedBatch 1 m keys) := by
  simp only [step, h, endStep, latchedBatch]
  cases mode : (m.latchKeys keys).machine.mode with
  | waiting x => simp [batched_of_waiting mode, status, mode]
  | running =>
    cases failed : (m.latchKeys keys).machine.executeNext.failure with
    | some f => simp [batched_succ_of_failure mode failed, failed]
    | none => simp [batched_succ_of_ok mode failed, batched_zero]

/-! ### What a batch preserves -/

/-- **What each instruction preserves, a batch preserves.** -/
theorem batched_invariant {I : Machine → Prop}
    (next : ∀ m, I m → m.mode = .running → I m.executeNext.machine) (n : Nat) (h : I m) :
    I (batched n m).machine := by
  -- By induction on how many instructions may still be executed.
  induction n generalizing m with
  | zero => exact h
  | succ n ih =>
    cases mode : m.mode with
    | waiting x =>
      rw [batched_of_waiting mode]
      exact h
    | running =>
      cases failed : m.executeNext.failure with
      | some f =>
        rw [batched_succ_of_failure mode failed]
        exact next m h mode
      | none =>
        rw [batched_succ_of_ok mode failed]
        exact ih (next m h mode)

/-- What each instruction preserves holds wherever a batch fetches one, and there the machine
runs. -/
theorem forall_fetches {I : Machine → Prop}
    (next : ∀ m, I m → m.mode = .running → I m.executeNext.machine) (n : Nat) (h : I m) :
    ∀ k ∈ fetches n m, I k ∧ k.mode = .running := by
  induction n generalizing m with
  | zero => exact nofun
  | succ n ih =>
    unfold fetches
    split
    · exact nofun
    · rename_i running
      split
      · exact List.forall_mem_singleton.2 ⟨h, running⟩
      · exact List.forall_mem_cons.2 ⟨⟨h, running⟩, ih (next m h running)⟩

theorem fault_batched (n : Nat) (m : Machine) : (batched n m).machine.fault = m.fault :=
  batched_invariant (I := fun k => k.fault = m.fault)
    (fun k h _ => (fault_executeNext k).trans h) n rfl

theorem tuning_batched (n : Nat) (m : Machine) : (batched n m).machine.tuning = m.tuning :=
  batched_invariant (I := fun k => k.tuning = m.tuning)
    (fun k h _ => (tuning_executeNext k).trans h) n rfl

/-- A batch that fails does so while the machine runs. -/
theorem running_of_batched_failure {n : Nat} {f : Fault} (h : (batched n m).failure = some f) :
    (batched n m).machine.mode = .running := by
  induction n generalizing m with
  | zero => cases h
  | succ n ih =>
    rcases m.running_or_waiting with mode | ⟨x, mode⟩
    · cases failed : m.executeNext.failure with
      | some g =>
        rw [batched_succ_of_failure mode failed, machine_of_failure failed]
        exact mode
      | none =>
        rw [batched_succ_of_ok mode failed] at h ⊢
        exact ih h
    · rw [batched_of_waiting mode] at h
      cases h

theorem frame?_batched (n : Nat) (m : Machine) :
    (batched n m).events.filterMap Event.frame? = [] := by
  induction n generalizing m with
  | zero => rfl
  | succ n ih =>
    rcases m.running_or_waiting with mode | ⟨x, mode⟩
    · cases failed : m.executeNext.failure with
      | some f =>
        rw [batched_succ_of_failure mode failed]
        exact frame?_executeNext m
      | none =>
        rw [batched_succ_of_ok mode failed, List.filterMap_append, frame?_executeNext, ih]
        rfl
    · rw [batched_of_waiting mode]
      rfl

end Machine

end Chip8
