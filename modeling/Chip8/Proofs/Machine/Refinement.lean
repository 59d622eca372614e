import Chip8.Proofs.Machine.Ending
import Chip8.Proofs.Machine.Runs

/-!
# A frame is made of single steps

A frame of `n` instructions leads to the machine that `n` single steps with the same keys lead to,
except that its end lets the timers tick and shows the picture (`Machine.cycle_refines_step`).

A step looks at the keyboard before its instruction, a frame only before its first one.  After the
first look the machine is *settled* for the keys that were seen: these keys are down already, and a
wait that goes on has no fresh key.  On a settled machine another look at the same keys does
nothing, and executing an instruction keeps the machine settled, also when the instruction starts a
wait, since that forgets the fresh keys.
-/

namespace Chip8

namespace Machine

/-- The machine has seen `keys`, and a wait has no fresh key that could answer it. -/
structure Settled (keys : KeySet) (m : Machine) : Prop where
  /-- The keys are down already. -/
  down : m.keypad.down = keys
  /-- No key is fresh during a wait. -/
  fresh : ∀ x, m.mode = .waiting x → m.keypad.fresh = .empty

variable {m : Machine} {keys : KeySet}

theorem settled_latchKeys (m : Machine) (keys : KeySet) :
    Settled keys (m.latchKeys keys).machine :=
  ⟨down_latchKeys m keys, fun _ h => fresh_latchKeys h⟩

/-- Looking at the same keys again does nothing. -/
theorem Settled.latchKeys (h : Settled keys m) : m.latchKeys keys = ⟨m, [.poll]⟩ := by
  have same : m.keypad.latch keys = m.keypad := h.down ▸ m.keypad.latch_down
  rcases latchKeys_cases m keys with ⟨kept, -⟩ | ⟨x, key, rest, mode, taken, -⟩
  · rw [kept, same]
  · rw [same, Keypad.take_eq_none_iff.2 (h.fresh x mode)] at taken
    cases taken

theorem Settled.executeNext (h : Settled keys m) : Settled keys m.executeNext.machine := by
  rcases executeNext_cases m with ⟨f, said, failed, -⟩ | ⟨op, e, -, outcome, done⟩
  · rw [failed]
    exact ⟨h.down, h.fresh⟩
  · rw [done]
    cases outcome with
    | call | ret | roll => exact ⟨h.down, h.fresh⟩
    | wait x => exact ⟨h.down, fun _ _ => rfl⟩
    | ordinary _ keeps =>
      refine ⟨keeps.keypad ▸ h.down, fun x waiting => ?_⟩
      rw [keeps.mode] at waiting
      exact keeps.keypad ▸ h.fresh x waiting

/-! ### Steps one after the other -/

theorem machine_step (alive : m.fault = none) :
    (m.step keys).machine = (batched 1 (m.latchKeys keys).machine).settled := by
  rw [step_of_alive alive, machine_endStep]
  rfl

/-- A step begins with a look at the keyboard; having looked before makes no difference. -/
theorem machine_step_latchKeys (alive : m.fault = none) :
    ((m.latchKeys keys).machine.step keys).machine = (m.step keys).machine := by
  have alive' := (idle_latchKeys m keys).fault.trans alive
  rw [machine_step alive, machine_step alive', (settled_latchKeys m keys).latchKeys]

/-- On a settled machine single steps do what a batch does. -/
theorem Settled.after_steps (h : Settled keys m) (alive : m.fault = none) (n : Nat) :
    m.after (List.replicate n (.step keys)) = (batched n m).settled := by
  induction n generalizing m with
  | zero => rfl
  | succ n ih =>
    have first : (m.step keys).machine = (batched 1 m).settled := by
      rw [machine_step alive, h.latchKeys]
    simp only [List.replicate_succ, after, turn, first]
    rcases m.running_or_waiting with mode | ⟨x, mode⟩
    · cases failed : m.executeNext.failure with
      | some f =>
        -- The batch stops here, and so do the steps, since the machine is halted.
        simp only [batched_succ_of_failure mode failed, Advance.settled_of_failure failed]
        exact after_of_halted rfl _
      | none =>
        have next := ih h.executeNext ((fault_executeNext m).trans alive)
        simp only [batched_succ_of_ok mode failed, batched_zero]
        exact next
    · -- The batch stops here, and each step that is left finds no fresh key.
      simp only [batched_of_waiting mode]
      exact (ih h alive).trans (by rw [batched_of_waiting mode])

/-- Steps with the same keys lead to what one look at the keyboard and a batch lead to. -/
theorem after_steps (alive : m.fault = none) {n : Nat} (pos : 1 ≤ n) :
    m.after (List.replicate n (.step keys)) = (latchedBatch n m keys).settled := by
  obtain ⟨k, rfl⟩ := Nat.exists_eq_add_of_le' pos
  have alive' := (idle_latchKeys m keys).fault.trans alive
  calc m.after (List.replicate (k + 1) (.step keys))
      = (m.step keys).machine.after (List.replicate k (.step keys)) := rfl
    _ = ((m.latchKeys keys).machine.step keys).machine.after (List.replicate k (.step keys)) := by
        rw [machine_step_latchKeys alive]
    _ = (m.latchKeys keys).machine.after (List.replicate (k + 1) (.step keys)) := rfl
    _ = (batched (k + 1) (m.latchKeys keys).machine).settled :=
        (settled_latchKeys m keys).after_steps alive' (k + 1)
    _ = (latchedBatch (k + 1) m keys).settled := rfl

/-! ### Frames -/

/-- **A frame is made of single steps.**  Let `s` be the machine after as many single steps as a
frame has instructions, all with the same keys.  The frame leads to `s`, except that both timers
have ticked, unless a fault halted the machine or it waits and the timers pause then, and that the
picture is no longer stale.  The frame shows the picture exactly if `s` is left with a stale one,
and it tells the fault of `s`, or that `s` waits for a key, or that `s` runs on. -/
theorem cycle_refines_step (alive : m.fault = none) (speed : 1 ≤ m.tuning.speed) :
    let s := m.after (List.replicate m.tuning.speed (.step keys))
    let frame := m.cycle keys
    frame.machine =
      { s with
        delay := if s.fault = none ∧ (s.mode = .running ∨ m.tuning.timersWhileWaiting = true)
          then s.delay.tick else s.delay
        sound := if s.fault = none ∧ (s.mode = .running ∨ m.tuning.timersWhileWaiting = true)
          then s.sound.tick else s.sound
        stale := false } ∧
      frame.events.filterMap Event.frame? = (if s.stale then [s.frame] else []) ∧
      (∀ f, frame.status = .halted f ↔ s.fault = some f) ∧
      (frame.status = .blocked ↔ ∃ x, s.mode = .waiting x) ∧
      (frame.status = .done ↔ s.fault = none ∧ s.mode = .running) := by
  intro s frame
  have stepped : s = (latchedBatch m.tuning.speed m keys).settled := after_steps alive speed
  have ended : frame = endFrame (latchedBatch m.tuning.speed m keys) := cycle_of_alive alive
  have alive' : (latchedBatch m.tuning.speed m keys).machine.fault = none :=
    (fault_latchedBatch _ m keys).trans alive
  have tuning : s.tuning = m.tuning := by
    rw [stepped, Advance.tuning_settled, tuning_latchedBatch]
  have silent := frame?_latchedBatch m.tuning.speed m keys
  have status := status_endFrame alive' fun f failed => running_of_batched_failure failed
  rw [← stepped, ← ended] at status
  refine ⟨?_, ?_, status⟩
  · simp only [ended, machine_endFrame alive', ← stepped, ticks_iff, tuning]
  · rw [ended, frame?_endFrame silent, ← stepped]

/-- A machine that waits is answered by the first look at the keyboard, then meets a word that is no
instruction; the frame tells the fault that the steps leave. -/
theorem cycle_refines_step_of_answered :
    let m := (blank .standard (.ofFaces fun _ => 0)).act (.execute (.waitForKey 3))
    m.fault = none ∧ 1 ≤ m.tuning.speed ∧
      (m.cycle (.single 5)).status = .halted (.unknownOpcode 0 0x200) := by
  refine ⟨rfl, by decide, ?_⟩
  exact ((cycle_refines_step rfl (by decide)).2.2.1 _).2 (by decide +kernel)

end Machine

end Chip8
