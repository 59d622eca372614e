import Chip8.Instruction
import Chip8.Memory
import Chip8.Frame
import Chip8.Keypad
import Chip8.Timer
import Chip8.Tuning
import Chip8.Dice

/-!
# The machine

The state of a machine: sixteen byte registers, an index register, a program counter, a call stack
of bounded depth, memory, picture, keypad, two timers, and a source of random bytes.  A machine that
met a fault keeps it for ever.

* `Machine.reg_setReg` : a register that was set reads back, every other one is as before.
* `Machine.reg_setFlagged` : what a result and its flag leave in each register.
-/

namespace Chip8

/-- Whether a machine executes instructions. -/
inductive Mode where
  /-- It executes instructions. -/
  | running
  /-- It waits for a key to go down, which a register will receive. -/
  | waiting (register : Register)
  deriving DecidableEq, Repr

/-- The state of a machine. -/
structure Machine where
  /-- What the user has set. -/
  tuning : Tuning
  /-- The registers. -/
  v : Vector UInt8 16
  /-- The index register, an address. -/
  index : UInt16
  /-- The address of the next instruction. -/
  pc : UInt16
  /-- The return addresses of the open calls, innermost first. -/
  stack : List UInt16
  /-- The memory. -/
  memory : Memory
  /-- The picture. -/
  frame : Frame
  /-- Whether the picture was drawn on since it was shown last. -/
  stale : Bool
  /-- The keys as they were seen last. -/
  keypad : Keypad
  /-- The delay timer. -/
  delay : Timer
  /-- The sound timer. -/
  sound : Timer
  /-- Whether instructions are executed. -/
  mode : Mode
  /-- The fault that halted the machine. -/
  fault : Option Fault
  /-- Where random bytes come from. -/
  dice : Dice

namespace Machine

/-- The number of calls that may be open. -/
def stackDepth : Nat := 16

/-- The register that instructions set as a flag. -/
def flagRegister : Register := 0xF

/-- A machine with nothing in memory. -/
def blank (tuning : Tuning) (dice : Dice) : Machine where
  tuning := tuning
  v := Vector.replicate 16 0
  index := 0
  pc := Memory.programStart
  stack := []
  memory := .zero
  frame := .dark
  stale := false
  keypad := .idle
  delay := .stopped
  sound := .stopped
  mode := .running
  fault := none
  dice := dice

/-- The value of a register. -/
def reg (m : Machine) (x : Register) : UInt8 := m.v[x]

/-- The machine with one register set. -/
def setReg (m : Machine) (x : Register) (b : UInt8) : Machine :=
  { m with v := m.v.set x.val b x.isLt }

/-- The machine with the flag register set, and then a result put into `x`; so the result stays if
`x` is the flag register. -/
def setFlagged (m : Machine) (x : Register) (result : UInt8) (flag : Bool) : Machine :=
  (m.setReg flagRegister flag.toUInt8).setReg x result

/-- The machine with its program counter moved past one instruction. -/
def advance (m : Machine) : Machine := { m with pc := Memory.wrap (m.pc + 2) }

/-- The address of the instruction that the program counter was moved past last. -/
def currentAddress (m : Machine) : UInt16 := Memory.wrap (m.pc - 2)

theorem reg_setReg (m : Machine) (x y : Register) (b : UInt8) :
    (m.setReg x b).reg y = if x = y then b else m.reg y := by
  simp only [reg, setReg, Fin.getElem_fin, Vector.getElem_set, Fin.val_inj]

theorem reg_setReg_of_ne (m : Machine) {x y : Register} (b : UInt8) (h : y ≠ x) :
    (m.setReg x b).reg y = m.reg y := by
  rw [reg_setReg, if_neg h.symm]

theorem reg_setFlagged (m : Machine) (x y : Register) (result : UInt8) (flag : Bool) :
    (m.setFlagged x result flag).reg y =
      if x = y then result else if flagRegister = y then flag.toUInt8 else m.reg y := by
  rw [setFlagged, reg_setReg, reg_setReg]

end Machine

end Chip8
