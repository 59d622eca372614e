import Chip8.Machine.Execute

/-!
# Frames and single steps

`Machine.cycle` runs one frame of a machine: it looks at the keyboard, executes a batch of
instructions, ticks the timers, and drives the tone and the display.  `Machine.step` executes one
instruction and leaves timers, tone and display alone.  Both do nothing on a halted machine.
-/

namespace Chip8

/-- How a frame or a step ended. -/
inductive Status where
  /-- The machine runs on. -/
  | done
  /-- A key is awaited. -/
  | blocked
  /-- The machine is halted. -/
  | halted (fault : Fault)
  deriving DecidableEq, Repr

/-- A frame or a step: what became of the machine, what its surroundings saw, and how it ended. -/
structure Turn where
  /-- The machine afterwards. -/
  machine : Machine
  /-- What its surroundings saw, in order. -/
  events : List Event
  /-- How it ended. -/
  status : Status

namespace Machine

/-- Whether the machine runs or waits. -/
def status (m : Machine) : Status :=
  match m.mode with
  | .running => .done
  | .waiting _ => .blocked

/-- Look at the keyboard; a key that went down answers a wait. -/
def latchKeys (m : Machine) (keys : KeySet) : Effect :=
  let m := { m with keypad := m.keypad.latch keys }
  match m.mode with
  | .running => ⟨m, [.poll]⟩
  | .waiting x =>
    match m.keypad.take with
    | none => ⟨m, [.poll]⟩
    | some (key, keypad) =>
      ⟨{ m with keypad := keypad, mode := .running }.setReg x (UInt8.ofNat key.val),
        [.poll, .notice (.keyStored key x)]⟩

/-- Execute up to `n` instructions, stopping at a wait or at a failure; `seen` are the events so
far. -/
def batch : Nat → Machine → Array Event → Machine × Array Event × Option Fault
  | 0, m, seen => (m, seen, none)
  | n + 1, m, seen =>
    match m.mode with
    | .waiting _ => (m, seen, none)
    | .running =>
      let a := m.executeNext
      let seen := seen ++ a.events
      match a.failure with
      | some fault => (a.machine, seen, some fault)
      | none => batch n a.machine seen

/-- Whether the timers tick at the end of a frame. -/
def ticks (m : Machine) : Bool :=
  m.mode = .running || m.tuning.timersWhileWaiting

/-- Tick both timers, if they tick at all. -/
def tickTimers (m : Machine) : Effect :=
  if m.ticks then
    ⟨{ m with delay := m.delay.tick, sound := m.sound.tick },
      if m.sound.outcome = .finished then [.notice .soundFinished] else []⟩
  else ⟨m, []⟩

/-- What the tone is told. -/
def tone (m : Machine) : Event :=
  if m.sound.active then .play m.tuning.gain m.tuning.frequency else .silence

/-- Show the picture if it was drawn on. -/
def presentFrame (m : Machine) : Effect :=
  if m.stale then ⟨{ m with stale := false }, [.present m.frame]⟩ else ⟨m, []⟩

/-- Halt the machine for ever. -/
def halt (m : Machine) (fault : Fault) : Effect :=
  ⟨{ m with fault := some fault }, [.notice (.halted fault)]⟩

/-- Run one frame. -/
def cycle (m : Machine) (keys : KeySet) : Turn :=
  match m.fault with
  | some fault => ⟨m, [], .halted fault⟩
  | none =>
    let latched := m.latchKeys keys
    let (m, seen, failure) := batch m.tuning.speed latched.machine latched.events.toArray
    match failure with
    | some fault =>
      let shown := m.presentFrame
      let last := shown.machine.halt fault
      ⟨last.machine, seen.toList ++ .silence :: shown.events ++ last.events, .halted fault⟩
    | none =>
      let ticked := m.tickTimers
      let shown := ticked.machine.presentFrame
      ⟨shown.machine,
        seen.toList ++ ticked.events ++ ticked.machine.tone :: shown.events,
        shown.machine.status⟩

/-- Execute one instruction. -/
def step (m : Machine) (keys : KeySet) : Turn :=
  match m.fault with
  | some fault => ⟨m, [], .halted fault⟩
  | none =>
    let latched := m.latchKeys keys
    match latched.machine.mode with
    | .waiting _ => ⟨latched.machine, latched.events, .blocked⟩
    | .running =>
      let a := latched.machine.executeNext
      match a.failure with
      | some fault =>
        let last := a.machine.halt fault
        ⟨last.machine, latched.events ++ a.events ++ last.events, .halted fault⟩
      | none => ⟨a.machine, latched.events ++ a.events, a.machine.status⟩

end Machine

end Chip8
