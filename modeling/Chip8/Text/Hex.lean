/-!
# Hexadecimal text

Upper-case hexadecimal digits, filled with zeros to a least width.
-/

namespace Chip8

namespace Hex

/-- The digits of `n`, most significant first; zero has the one digit `0`. -/
def digits (n : Nat) : List Char :=
  (Nat.toDigits 16 n).map Char.toUpper

/-- The digits of `n`, filled on the left with zeros up to `width`. -/
def padded (width n : Nat) : String :=
  let ds := digits n
  String.ofList (List.replicate (width - ds.length) '0' ++ ds)

/-- An address: `0x` and at least three digits. -/
def address (a : UInt16) : String :=
  "0x" ++ padded 3 a.toNat

/-- An instruction word: `0x` and at least four digits. -/
def word (w : UInt16) : String :=
  "0x" ++ padded 4 w.toNat

end Hex

end Chip8
