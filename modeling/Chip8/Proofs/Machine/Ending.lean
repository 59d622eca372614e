import Chip8.Proofs.Machine.Idle

/-!
# The end of a frame

What the end of a frame does to the machine that its batch left, which picture it shows, and which
status it returns.

* `Machine.machine_endFrame` : without a fault, and unless a wait stops them, both timers tick.
* `Machine.frame?_endFrame` : the picture is shown if it was drawn on.
* `Machine.status_endFrame` : the status tells whether the machine is halted, waits, or runs on.
-/

namespace Chip8

namespace Machine

variable {m : Machine}

/-! ### Its parts -/

theorem machine_presentFrame (m : Machine) :
    m.presentFrame.machine = { m with stale := false } := by
  unfold presentFrame
  split
  · rfl
  · rename_i shown
    rw [← (Bool.not_eq_true m.stale).mp shown]

theorem frame?_presentFrame (m : Machine) :
    m.presentFrame.events.filterMap Event.frame? = if m.stale then [m.frame] else [] := by
  unfold presentFrame
  split <;> rfl

theorem machine_tickTimers (m : Machine) :
    m.tickTimers.machine =
      { m with
        delay := if m.ticks then m.delay.tick else m.delay
        sound := if m.ticks then m.sound.tick else m.sound } := by
  unfold tickTimers
  split <;> rfl

theorem frame?_tickTimers (m : Machine) :
    m.tickTimers.events.filterMap Event.frame? = [] := by
  unfold tickTimers
  split
  · split <;> rfl
  · rfl

theorem frame?_tone (m : Machine) : m.tone.frame? = none := by
  unfold tone
  split <;> rfl

theorem ticks_iff (m : Machine) :
    m.ticks = true ↔ m.mode = .running ∨ m.tuning.timersWhileWaiting = true := by
  simp [ticks]

theorem status_eq_blocked_iff : m.status = .blocked ↔ ∃ x, m.mode = .waiting x := by
  unfold status
  split <;> rename_i mode <;> simp [mode]

theorem status_eq_done_iff : m.status = .done ↔ m.mode = .running := by
  unfold status
  split <;> rename_i mode <;> simp [mode]

theorem status_ne_halted (f : Fault) : m.status ≠ .halted f := by
  unfold status
  split <;> nofun

/-! ### The whole -/

/-- The machine after the end of a frame, in terms of what the batch left. -/
theorem machine_endFrame {a : Advance} (alive : a.machine.fault = none) :
    let s := a.settled
    (endFrame a).machine =
      { s with
        delay := if s.fault = none ∧ s.ticks then s.delay.tick else s.delay
        sound := if s.fault = none ∧ s.ticks then s.sound.tick else s.sound
        stale := false } := by
  cases failed : a.failure with
  | some f => simp [endFrame, Advance.settled, failed, halt, machine_presentFrame]
  | none =>
    simp [endFrame, Advance.settled, failed, machine_presentFrame, machine_tickTimers, alive]

/-- The end of a frame shows the picture if it was drawn on. -/
theorem frame?_endFrame {a : Advance} (silent : a.events.filterMap Event.frame? = []) :
    (endFrame a).events.filterMap Event.frame? =
      if a.settled.stale then [a.settled.frame] else [] := by
  cases failed : a.failure with
  | some f =>
    simp [endFrame, Advance.settled, failed, halt, silent, frame?_presentFrame, Event.frame?,
      List.filterMap_cons]
  | none =>
    have ticked := idle_tickTimers a.machine
    have stale : a.machine.tickTimers.machine.stale = a.machine.stale := by
      rw [machine_tickTimers]
    simp [endFrame, Advance.settled, failed, silent, frame?_presentFrame, frame?_tickTimers,
      frame?_tone, ticked.frame, stale]

/-- How a frame ends, in terms of what the batch left. -/
theorem status_endFrame {a : Advance} (alive : a.machine.fault = none)
    (running : ∀ f, a.failure = some f → a.machine.mode = .running) :
    (∀ f, (endFrame a).status = .halted f ↔ a.settled.fault = some f) ∧
      ((endFrame a).status = .blocked ↔ ∃ x, a.settled.mode = .waiting x) ∧
      ((endFrame a).status = .done ↔ a.settled.fault = none ∧ a.settled.mode = .running) := by
  cases failed : a.failure with
  | some f => simp [endFrame, Advance.settled, failed, running f failed]
  | none =>
    have mode : a.machine.tickTimers.machine.presentFrame.machine.mode = a.machine.mode := by
      rw [machine_presentFrame, machine_tickTimers]
    simp [endFrame, Advance.settled, failed, alive, mode, status_eq_blocked_iff,
      status_eq_done_iff, status_ne_halted]

end Machine

end Chip8
