import Chip8.Instruction

/-!
# Instruction words

An instruction is written as one sixteen-bit word, four hexadecimal digits that follow its
pattern.  `Instruction.decode` reads a word, `Instruction.ofWord` hands back a word that it cannot
read, and `Instruction.encode` writes one.
-/

namespace Chip8

namespace Instruction

/-! ### Fields of a word -/

/-- The first digit of a word, which selects the family of the instruction. -/
def family (w : UInt16) : UInt16 := w / 0x1000

/-- The register named by the second digit. -/
def fieldX (w : UInt16) : Register := Fin.ofNat 16 (w.toNat / 0x100)

/-- The register named by the third digit. -/
def fieldY (w : UInt16) : Register := Fin.ofNat 16 (w.toNat / 0x10)

/-- The last digit. -/
def fieldN (w : UInt16) : UInt8 := (w % 0x10).toUInt8

/-- The last two digits. -/
def fieldNN (w : UInt16) : UInt8 := w.toUInt8

/-- The last three digits. -/
def fieldNNN (w : UInt16) : UInt16 := w % 0x1000

/-! ### Reading -/

/-- The instruction with family digit `8`, chosen by the last digit. -/
def decodeArithmetic (x y : Register) : UInt8 → Option Instruction
  | 0x0 => some (copy x y)
  | 0x1 => some (or x y)
  | 0x2 => some (and x y)
  | 0x3 => some (xor x y)
  | 0x4 => some (add x y)
  | 0x5 => some (subtract x y)
  | 0x6 => some (shiftRight x y)
  | 0x7 => some (subtractFrom x y)
  | 0xE => some (shiftLeft x y)
  | _ => none

/-- The instruction with family digit `F`, chosen by the last two digits. -/
def decodeDevice (x : Register) : UInt8 → Option Instruction
  | 0x07 => some (readDelay x)
  | 0x0A => some (waitForKey x)
  | 0x15 => some (setDelay x)
  | 0x18 => some (setSound x)
  | 0x1E => some (addIndex x)
  | 0x29 => some (pointAtGlyph x)
  | 0x33 => some (storeDecimal x)
  | 0x55 => some (storeRegisters x)
  | 0x65 => some (loadRegisters x)
  | _ => none

/-- The instruction that a word stands for, if it stands for one. -/
def decode (w : UInt16) : Option Instruction :=
  let x := fieldX w
  let y := fieldY w
  let n := fieldN w
  let nn := fieldNN w
  let nnn := fieldNNN w
  match family w with
  | 0x0 => if nnn = 0x0E0 then some clearScreen else if nnn = 0x0EE then some ret else none
  | 0x1 => some (jump nnn)
  | 0x2 => some (call nnn)
  | 0x3 => some (skipIfByte x nn)
  | 0x4 => some (skipUnlessByte x nn)
  | 0x5 => if n = 0 then some (skipIfSame x y) else none
  | 0x6 => some (setByte x nn)
  | 0x7 => some (addByte x nn)
  | 0x8 => decodeArithmetic x y n
  | 0x9 => if n = 0 then some (skipUnlessSame x y) else none
  | 0xA => some (setIndex nnn)
  | 0xB => some (jumpOffset nnn)
  | 0xC => some (random x nn)
  | 0xD => some (draw x y n)
  | 0xE =>
    if nn = 0x9E then some (skipIfKey x)
    else if nn = 0xA1 then some (skipUnlessKey x)
    else none
  | 0xF => decodeDevice x nn
  | _ => none

/-- The instruction that a word stands for, or the word itself if it stands for none. -/
def ofWord (w : UInt16) : Except UInt16 Instruction :=
  match decode w with
  | some op => .ok op
  | none => .error w

/-! ### Writing -/

/-- A word from its family digit and a three-digit operand. -/
def wordNNN (first : UInt16) (nnn : UInt16) : UInt16 :=
  first * 0x1000 + nnn

/-- A word from its family digit, a register and a byte. -/
def wordXNN (first : UInt16) (x : Register) (nn : UInt8) : UInt16 :=
  first * 0x1000 + UInt16.ofNat x.val * 0x100 + nn.toUInt16

/-- A word from its family digit, two registers and a last digit. -/
def wordXYN (first : UInt16) (x y : Register) (n : UInt8) : UInt16 :=
  first * 0x1000 + UInt16.ofNat x.val * 0x100 + UInt16.ofNat y.val * 0x10 + n.toUInt16

/-- The word that the pattern of an instruction spells. -/
def encode : Instruction → UInt16
  | clearScreen => 0x00E0
  | ret => 0x00EE
  | jump nnn => wordNNN 0x1 nnn
  | call nnn => wordNNN 0x2 nnn
  | skipIfByte x nn => wordXNN 0x3 x nn
  | skipUnlessByte x nn => wordXNN 0x4 x nn
  | skipIfSame x y => wordXYN 0x5 x y 0x0
  | setByte x nn => wordXNN 0x6 x nn
  | addByte x nn => wordXNN 0x7 x nn
  | copy x y => wordXYN 0x8 x y 0x0
  | or x y => wordXYN 0x8 x y 0x1
  | and x y => wordXYN 0x8 x y 0x2
  | xor x y => wordXYN 0x8 x y 0x3
  | add x y => wordXYN 0x8 x y 0x4
  | subtract x y => wordXYN 0x8 x y 0x5
  | shiftRight x y => wordXYN 0x8 x y 0x6
  | subtractFrom x y => wordXYN 0x8 x y 0x7
  | shiftLeft x y => wordXYN 0x8 x y 0xE
  | skipUnlessSame x y => wordXYN 0x9 x y 0x0
  | setIndex nnn => wordNNN 0xA nnn
  | jumpOffset nnn => wordNNN 0xB nnn
  | random x nn => wordXNN 0xC x nn
  | draw x y n => wordXYN 0xD x y n
  | skipIfKey x => wordXNN 0xE x 0x9E
  | skipUnlessKey x => wordXNN 0xE x 0xA1
  | readDelay x => wordXNN 0xF x 0x07
  | waitForKey x => wordXNN 0xF x 0x0A
  | setDelay x => wordXNN 0xF x 0x15
  | setSound x => wordXNN 0xF x 0x18
  | addIndex x => wordXNN 0xF x 0x1E
  | pointAtGlyph x => wordXNN 0xF x 0x29
  | storeDecimal x => wordXNN 0xF x 0x33
  | storeRegisters x => wordXNN 0xF x 0x55
  | loadRegisters x => wordXNN 0xF x 0x65

end Instruction

end Chip8
