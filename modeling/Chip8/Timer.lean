/-!
# Timers

A timer is a byte that counts down by one at each tick and stays at zero.
-/

namespace Chip8

/-- A timer, held as its value. -/
structure Timer where
  /-- Ticks left until it stands still. -/
  value : UInt8
  deriving DecidableEq

/-- What a tick did to a timer. -/
inductive Tick where
  /-- It counted down and goes on. -/
  | on
  /-- It stood at zero already. -/
  | off
  /-- It counted down to zero. -/
  | finished
  deriving DecidableEq, Repr

namespace Timer

/-- A timer that stands still. -/
def stopped : Timer := ⟨0⟩

/-- Whether the timer still counts. -/
def active (t : Timer) : Bool := t.value != 0

/-- What the next tick does. -/
def outcome (t : Timer) : Tick :=
  if t.value = 0 then .off else if t.value = 1 then .finished else .on

/-- The timer after a tick. -/
def tick (t : Timer) : Timer :=
  if t.value = 0 then t else ⟨t.value - 1⟩

end Timer

end Chip8
