import Chip8.Main
import Chip8.Proofs.Machine.Refinement
import Chip8.Proofs.Machine.Bounds
import Chip8.Proofs.Machine.KeyWait
import Chip8.Proofs.Machine.Subroutines
import Chip8.Proofs.Machine.Halting
import Chip8.Proofs.Machine.Display
import Chip8.Proofs.Machine.Timers
import Chip8.Proofs.Instruction.Words
import Chip8.Proofs.Instruction.Image
import Chip8.Proofs.Machine.Faults
import Chip8.Proofs.Frame.Toggling
import Chip8.Proofs.Machine.Drawing
import Chip8.Proofs.FrameLoop.Stopping
import Chip8.Proofs.Machine.Footprint
import Chip8.Proofs.Machine.Redrawing
import Chip8.Proofs.Machine.ControlFlow
import Chip8.Proofs.Machine.Arithmetic
import Chip8.Proofs.Machine.Saving
import Chip8.Proofs.Memory.Installing
import Chip8.Proofs.Machine.Decimal
import Chip8.Proofs.Machine.Loading
import Chip8.Proofs.Frame.Grid
import Chip8.Proofs.Keypad.Transitions
import Chip8.Proofs.Terminal.KeyHold
import Chip8.Proofs.Terminal.Showing
import Chip8.Proofs.Terminal.Failures
import Chip8.Proofs.Terminal.Bell
import Chip8.Proofs.Program.Restoring
import Chip8.Proofs.Machine.Auditing
import Chip8.Proofs.Log.Writing
import Chip8.Proofs.Memory.Ring
import Chip8.Proofs.CommandLine.Limits
