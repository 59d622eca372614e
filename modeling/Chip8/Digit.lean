/-!
# Hexadecimal digits

The sixteen registers and the sixteen keys are named by the hexadecimal digits.
-/

namespace Chip8

/-- One of the sixteen hexadecimal digits. -/
abbrev Digit := Fin 16

-- The zero is spelled out as numerals have it: later imports bring other ways to find one.
/-- So each number names a digit, the one that it leaves when it is divided by sixteen. -/
instance Digit.neZero : @NeZero Nat Zero.ofOfNat0 16 := ⟨by decide⟩

end Chip8
