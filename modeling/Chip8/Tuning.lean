/-!
# Tuning

What a user may set about a machine.  The gain and the frequency of the tone are single-precision
floating-point numbers and are only passed on to the player of the tone, so they are held as their
bit patterns.
-/

namespace Chip8

/-- The adjustable numbers of a machine. -/
structure Tuning where
  /-- Instructions executed in one frame. -/
  speed : Nat
  /-- The bits of the gain of the tone. -/
  gain : UInt32
  /-- The bits of the frequency of the tone, in hertz. -/
  frequency : UInt32
  /-- Whether the timers go on while a key is awaited. -/
  timersWhileWaiting : Bool
  deriving DecidableEq

namespace Tuning

/-- Ten instructions a frame, gain 1, 440 hertz, and timers that never pause. -/
def standard : Tuning where
  speed := 10
  gain := 0x3F800000
  frequency := 0x43DC0000
  timersWhileWaiting := true

end Tuning

end Chip8
