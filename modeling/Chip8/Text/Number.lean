/-!
# Decimal numbers

A number is written in decimal digits, with a plus sign before them or without one, and leading
zeros count for nothing.  Each place where a number may stand has a limit that it stays below.
-/

namespace Chip8

namespace Number

/-- The value of a digit. -/
def digit? (c : Char) : Option Nat :=
  if '0' ≤ c ∧ c ≤ '9' then some (c.toNat - 48) else none

/-- The value of digits that follow digits worth `n`. -/
def continue? (n : Nat) : List Char → Option Nat
  | [] => some n
  | c :: cs => (digit? c).bind fun d => continue? (n * 10 + d) cs

/-- The value of one or more digits. -/
def digits? : List Char → Option Nat
  | [] => none
  | cs => continue? 0 cs

/-- The number that characters write, if they write one below a limit. -/
def below? (limit : Nat) (cs : List Char) : Option Nat :=
  let value := match cs with
    | '+' :: ds => digits? ds
    | ds => digits? ds
  value.filter (· < limit)

end Number

end Chip8
