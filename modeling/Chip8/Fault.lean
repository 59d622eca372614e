import Chip8.Text.Hex
import Chip8.Text.Fields

/-!
# Faults

The causes that stop a machine or keep a program from being loaded, with their wording.
-/

namespace Chip8

/-- Why a machine halted, or why a program was not loaded. -/
inductive Fault where
  /-- The word read at `address` is no instruction. -/
  | unknownOpcode (word address : UInt16)
  /-- A call at `address` found the call stack full. -/
  | stackOverflow (address : UInt16)
  /-- A return at `address` found the call stack empty. -/
  | stackUnderflow (address : UInt16)
  /-- A program of `size` bytes does not fit into `limit` bytes. -/
  | programTooLarge (size limit : Nat)
  deriving DecidableEq, Repr

namespace Fault

/-- The sentence shown to the user. -/
def message : Fault → String
  | unknownOpcode word address =>
    "unknown opcode " ++ Hex.word word ++ " at " ++ Hex.address address
  | stackOverflow address => "call stack overflow at " ++ Hex.address address
  | stackUnderflow address => "return with empty call stack at " ++ Hex.address address
  | programTooLarge size limit =>
    "program is " ++ toString size ++ " bytes, at most " ++ toString limit ++ " fit in memory"

/-- The name of the cause. -/
def name : Fault → String
  | unknownOpcode .. => "UnknownOpcode"
  | stackOverflow .. => "StackOverflow"
  | stackUnderflow .. => "StackUnderflow"
  | programTooLarge .. => "ProgramTooLarge"

/-- The named numbers of the cause. -/
def fields : Fault → List (String × Nat)
  | unknownOpcode word address => [("opcode", word.toNat), ("address", address.toNat)]
  | stackOverflow address => [("address", address.toNat)]
  | stackUnderflow address => [("address", address.toNat)]
  | programTooLarge size limit => [("len", size), ("max", limit)]

/-- The cause with its numbers, for a programmer. -/
def description (f : Fault) : String :=
  Fields.text f.name f.fields

end Fault

end Chip8
