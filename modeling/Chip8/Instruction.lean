import Chip8.Digit
import Chip8.Text.Fields

/-!
# Instructions

The instruction set, one constructor per instruction, named for what it does.  A register is one
of sixteen; an address operand is a whole word and an immediate a whole byte, and the machine
reduces an address to twelve bits when it uses it.

`Instruction.pattern` is the shape of the word that stands for an instruction and
`Instruction.description` its text in the log.
-/

namespace Chip8

/-- One of the sixteen registers. -/
abbrev Register := Digit

/-- An instruction of the machine. -/
inductive Instruction where
  /-- Switch every pixel off. -/
  | clearScreen
  /-- Return from the subroutine called last. -/
  | ret
  /-- Continue at an address. -/
  | jump (nnn : UInt16)
  /-- Call the subroutine at an address. -/
  | call (nnn : UInt16)
  /-- Skip the next instruction if a register holds a byte. -/
  | skipIfByte (x : Register) (nn : UInt8)
  /-- Skip the next instruction unless a register holds a byte. -/
  | skipUnlessByte (x : Register) (nn : UInt8)
  /-- Skip the next instruction if two registers are equal. -/
  | skipIfSame (x y : Register)
  /-- Put a byte into a register. -/
  | setByte (x : Register) (nn : UInt8)
  /-- Add a byte to a register, without a flag. -/
  | addByte (x : Register) (nn : UInt8)
  /-- Copy the second register into the first. -/
  | copy (x y : Register)
  /-- Bitwise or into the first register. -/
  | or (x y : Register)
  /-- Bitwise and into the first register. -/
  | and (x y : Register)
  /-- Bitwise exclusive or into the first register. -/
  | xor (x y : Register)
  /-- Add the second register to the first; the flag is the carry. -/
  | add (x y : Register)
  /-- Subtract the second register from the first; the flag says that nothing was borrowed. -/
  | subtract (x y : Register)
  /-- Halve the first register; the flag is the bit shifted out. -/
  | shiftRight (x y : Register)
  /-- Subtract the first register from the second, into the first; the flag says that nothing was
  borrowed. -/
  | subtractFrom (x y : Register)
  /-- Double the first register; the flag is the bit shifted out. -/
  | shiftLeft (x y : Register)
  /-- Skip the next instruction unless two registers are equal. -/
  | skipUnlessSame (x y : Register)
  /-- Set the index register. -/
  | setIndex (nnn : UInt16)
  /-- Continue at an address plus register 0. -/
  | jumpOffset (nnn : UInt16)
  /-- Put a random byte, masked, into a register. -/
  | random (x : Register) (nn : UInt8)
  /-- Draw `n` sprite rows found at the index at the position held by two registers; the flag says
  that a lit pixel was hit. -/
  | draw (x y : Register) (n : UInt8)
  /-- Skip the next instruction if the key named by a register is down. -/
  | skipIfKey (x : Register)
  /-- Skip the next instruction unless the key named by a register is down. -/
  | skipUnlessKey (x : Register)
  /-- Copy the delay timer into a register. -/
  | readDelay (x : Register)
  /-- Wait for a key to go down and put it into a register. -/
  | waitForKey (x : Register)
  /-- Set the delay timer from a register. -/
  | setDelay (x : Register)
  /-- Set the sound timer from a register. -/
  | setSound (x : Register)
  /-- Add a register to the index register. -/
  | addIndex (x : Register)
  /-- Point the index register at the glyph of the digit in a register. -/
  | pointAtGlyph (x : Register)
  /-- Store the three decimal digits of a register at the index. -/
  | storeDecimal (x : Register)
  /-- Store the registers up to and including `x` at the index. -/
  | storeRegisters (x : Register)
  /-- Fill the registers up to and including `x` from the index. -/
  | loadRegisters (x : Register)
  deriving DecidableEq, Repr

namespace Instruction

/-- The shape of the word that stands for an instruction: fixed digits, and letters for its
operands. -/
def pattern : Instruction → String
  | clearScreen => "00E0"
  | ret => "00EE"
  | jump _ => "1NNN"
  | call _ => "2NNN"
  | skipIfByte .. => "3XNN"
  | skipUnlessByte .. => "4XNN"
  | skipIfSame .. => "5XY0"
  | setByte .. => "6XNN"
  | addByte .. => "7XNN"
  | copy .. => "8XY0"
  | or .. => "8XY1"
  | and .. => "8XY2"
  | xor .. => "8XY3"
  | add .. => "8XY4"
  | subtract .. => "8XY5"
  | shiftRight .. => "8XY6"
  | subtractFrom .. => "8XY7"
  | shiftLeft .. => "8XYE"
  | skipUnlessSame .. => "9XY0"
  | setIndex _ => "ANNN"
  | jumpOffset _ => "BNNN"
  | random .. => "CXNN"
  | draw .. => "DXYN"
  | skipIfKey _ => "EX9E"
  | skipUnlessKey _ => "EXA1"
  | readDelay _ => "FX07"
  | waitForKey _ => "FX0A"
  | setDelay _ => "FX15"
  | setSound _ => "FX18"
  | addIndex _ => "FX1E"
  | pointAtGlyph _ => "FX29"
  | storeDecimal _ => "FX33"
  | storeRegisters _ => "FX55"
  | loadRegisters _ => "FX65"

/-- The operands under the letters of the pattern. -/
def operands : Instruction → List (String × Nat)
  | clearScreen | ret => []
  | jump nnn | call nnn | setIndex nnn | jumpOffset nnn => [("nnn", nnn.toNat)]
  | skipIfByte x nn | skipUnlessByte x nn | setByte x nn | addByte x nn | random x nn =>
    [("x", x.val), ("nn", nn.toNat)]
  | skipIfSame x y | copy x y | or x y | and x y | xor x y | add x y | subtract x y
  | shiftRight x y | subtractFrom x y | shiftLeft x y | skipUnlessSame x y =>
    [("x", x.val), ("y", y.val)]
  | draw x y n => [("x", x.val), ("y", y.val), ("n", n.toNat)]
  | skipIfKey x | skipUnlessKey x | readDelay x | waitForKey x | setDelay x | setSound x
  | addIndex x | pointAtGlyph x | storeDecimal x | storeRegisters x | loadRegisters x =>
    [("x", x.val)]

/-- The instruction in the log: an underscore, its pattern, and its operands in decimal. -/
def description (op : Instruction) : String :=
  Fields.text ("_" ++ op.pattern) op.operands

end Instruction

end Chip8
