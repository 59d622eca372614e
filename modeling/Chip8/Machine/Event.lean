import Chip8.Machine
import Chip8.Log

/-!
# What a machine lets its surroundings see

The calls that a machine makes on its surroundings (keyboard, dice, tone, display) and the notices
that it writes to the log, in the order in which they happen.
-/

namespace Chip8

/-- Something that a machine has to say. -/
inductive Notice where
  /-- The font was put into memory. -/
  | fontInstalled
  /-- A program of `size` bytes was put into memory. -/
  | programInstalled (size : Nat)
  /-- The word read at `address` was decoded and is about to be executed. -/
  | fetched (address word : UInt16) (op : Instruction)
  /-- A key is awaited for a register. -/
  | awaitingKey (register : Register)
  /-- A key went down and was put into a register. -/
  | keyStored (key : Key) (register : Register)
  /-- The sound timer reached zero. -/
  | soundFinished
  /-- A fault halted the machine. -/
  | halted (fault : Fault)
  deriving DecidableEq

namespace Notice

/-- How grave a notice is. -/
def level : Notice → Log.Level
  | fontInstalled | programInstalled _ | soundFinished => .debug
  | fetched .. => .trace
  | awaitingKey _ | keyStored .. => .info
  | halted _ => .error

/-- The module under which a notice is logged. -/
def origin : Notice → String
  | fontInstalled | programInstalled _ => "plum8::memory"
  | fetched .. | awaitingKey _ | keyStored .. | soundFinished | halted _ => "plum8::plum"

/-- The wording of a notice. -/
def message : Notice → String
  | fontInstalled => "font loaded at " ++ Hex.address Memory.fontStart
  | programInstalled size =>
    "program of " ++ toString size ++ " bytes loaded at " ++ Hex.address Memory.programStart
  | fetched address word op =>
    Hex.address address ++ ": " ++ Hex.padded 4 word.toNat ++ " " ++ op.description
  | awaitingKey register => "waiting for key to store in V" ++ Hex.padded 1 register.val
  | keyStored key register =>
    "key " ++ Hex.padded 1 key.val ++ " pressed, stored in V" ++ Hex.padded 1 register.val
  | soundFinished => "sound timer finished"
  | halted fault => "machine halted: " ++ fault.message

/-- The log record of a notice. -/
def record (n : Notice) : Log.Record where
  level := n.level
  origin := some n.origin
  target := n.origin
  message := n.message

end Notice

/-- A call of a machine on its surroundings, or a notice. -/
inductive Event where
  /-- The keyboard was asked for the keys that are down. -/
  | poll
  /-- A random byte was drawn. -/
  | draw (byte : UInt8)
  /-- A tone is to start or to go on. -/
  | play (gain frequency : UInt32)
  /-- The tone is to stop. -/
  | silence
  /-- A picture is to be shown. -/
  | present (frame : Frame)
  /-- Something was said. -/
  | notice (n : Notice)
  deriving DecidableEq

namespace Event

/-- The notice that an event is, if it is one. -/
def notice? : Event → Option Notice
  | notice n => some n
  | _ => none

/-- The picture that an event shows, if it shows one. -/
def frame? : Event → Option Frame
  | present frame => some frame
  | _ => none

end Event

end Chip8
