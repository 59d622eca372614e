/-!
# Pipes

A pipe takes bytes.  It may have room for some more bytes only: a write that does not fit is cut
short and fails, and so does every later one that is not empty.  A pipe may also refuse to flush.
-/

namespace Chip8

/-- How an operation on the surroundings failed. -/
inductive FailureKind where
  /-- Nobody reads from the pipe. -/
  | brokenPipe
  /-- It took too long. -/
  | timedOut
  /-- Anything else. -/
  | other
  deriving DecidableEq, Repr

namespace FailureKind

/-- The name of the kind. -/
def name : FailureKind → String
  | brokenPipe => "BrokenPipe"
  | timedOut => "TimedOut"
  | other => "Other"

end FailureKind

/-- A failed operation on the surroundings. -/
structure IoFailure where
  /-- How it failed. -/
  kind : FailureKind
  /-- What there is to say about it. -/
  message : String
  deriving DecidableEq, Repr

/-- A pipe. -/
structure Pipe where
  /-- How many more bytes it takes, if there is a bound. -/
  room : Option Nat
  /-- Whether it refuses to flush. -/
  stuck : Bool
  /-- How often it has failed. -/
  failures : Nat
  /-- The bytes that it has taken. -/
  taken : ByteArray

namespace Pipe

/-- A pipe without a bound that never fails. -/
def healthy : Pipe := ⟨none, false, 0, .empty⟩

/-- The pipe with one more failure, and the failure. -/
def fail (p : Pipe) (kind : FailureKind) (what : String) : Pipe × Option IoFailure :=
  let count := p.failures + 1
  ({ p with failures := count }, some ⟨kind, what ++ " failure " ++ toString count⟩)

/-- Write bytes, as many as there is room for. -/
def write (p : Pipe) (bytes : ByteArray) : Pipe × Option IoFailure :=
  match p.room with
  | none => ({ p with taken := p.taken ++ bytes }, none)
  | some room =>
    if bytes.size ≤ room then
      ({ p with taken := p.taken ++ bytes, room := some (room - bytes.size) }, none)
    else
      fail { p with taken := p.taken ++ bytes.extract 0 room, room := some 0 } .brokenPipe "write"

/-- Flush. -/
def flush (p : Pipe) : Pipe × Option IoFailure :=
  if p.stuck then p.fail .timedOut "flush" else (p, none)

/-- Write text and flush, stopping at the first failure. -/
def send (p : Pipe) (text : String) : Pipe × Option IoFailure :=
  match p.write text.toUTF8 with
  | (p, some failure) => (p, some failure)
  | (p, none) => p.flush

end Pipe

end Chip8
