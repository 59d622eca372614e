/-!
# Text of a time span

A span is held in nanoseconds and written in the largest of the units `s`, `ms`, `µs` and `ns`
that it reaches, as a decimal number without trailing zeros: `16.666666ms`, `1s`, `0ns`.
-/

namespace Chip8

namespace Period

/-- The digits after the point of `rest / 10 ^ places`, without trailing zeros. -/
def fraction (places rest : Nat) : List Char :=
  let ds := Nat.toDigits 10 rest
  let all := List.replicate (places - ds.length) '0' ++ ds
  (all.reverse.dropWhile (· = '0')).reverse

/-- `span` nanoseconds in a unit of `10 ^ places` nanoseconds. -/
def inUnit (places : Nat) (unit : String) (span : Nat) : String :=
  let whole := toString (span / Nat.pow 10 places)
  let part := fraction places (span % Nat.pow 10 places)
  if part.isEmpty then whole ++ unit
  else whole ++ "." ++ String.ofList part ++ unit

/-- The span in the largest unit that it reaches. -/
def text (span : Nat) : String :=
  if 1000000000 ≤ span then inUnit 9 "s" span
  else if 1000000 ≤ span then inUnit 6 "ms" span
  else if 1000 ≤ span then inUnit 3 "µs" span
  else inUnit 0 "ns" span

end Period

end Chip8
