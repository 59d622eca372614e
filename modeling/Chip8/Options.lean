import Chip8.Log
import Chip8.Tuning

/-!
# Options

What the user asked for when starting the program.
-/

namespace Chip8

/-- The options of a run. -/
structure Options where
  /-- The path of the program to run. -/
  rom : String
  /-- Instructions executed in one frame. -/
  speed : Nat
  /-- Frames in a second. -/
  frameRate : Nat
  /-- Frames after which the run ends, if it is to end by itself. -/
  frames : Option Nat
  /-- How much is logged. -/
  verbosity : Log.Verbosity
  /-- The path of the log file. -/
  logFile : String
  /-- Whether the bell stays silent. -/
  mute : Bool
  deriving DecidableEq, Repr

namespace Options

/-- Everything as it is when only the program is given. -/
def ofRom (rom : String) : Options where
  rom := rom
  speed := Tuning.standard.speed
  frameRate := 60
  frames := none
  verbosity := .upTo .info
  logFile := "plum8.log"
  mute := false

/-- The time between two frames in nanoseconds, rounded down; a rate of zero counts as one. -/
def framePeriod (o : Options) : Nat := 1000000000 / max o.frameRate 1

/-- What the options say about the machine. -/
def tuning (o : Options) : Tuning := { Tuning.standard with speed := o.speed }

end Options

end Chip8
