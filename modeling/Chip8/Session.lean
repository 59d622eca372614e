import Chip8.FrameLoop
import Chip8.Terminal

/-!
# A terminal as surroundings

A session is a terminal whose keyboard is read: what arrives waits until it is taken in, which
happens once in each frame.  What arrives, and in which frame, is up to the user.

* `Session.pump` : a frame goes by for the held keys, and what waits is taken in.
* `Session.surroundings` : a session as surroundings of a machine.
-/

namespace Chip8

/-- A terminal, and the input that it has not taken in yet. -/
structure Session where
  /-- The terminal. -/
  terminal : Terminal
  /-- Input that has arrived and was not taken in. -/
  inbox : List Input
  /-- How often input was taken in. -/
  pumps : Nat

namespace Session

/-- Inputs before the first reply, and those after it. -/
def untilReply : List Input → List Input × List Input
  | [] => ([], [])
  | .reply :: rest => ([], rest)
  | input :: rest =>
    let (before, after) := untilReply rest
    (input :: before, after)

/-- Let a frame go by for the held keys, and take in what waits and what has arrived since.  A reply
ends what is taken in at once: what came after it is left for the next frame. -/
def pump (s : Session) (arrived : List Input) : Session :=
  let (inputs, inbox) := untilReply (s.inbox ++ arrived)
  ⟨inputs.foldl Terminal.take s.terminal.age, inbox, s.pumps + 1⟩

/-- Answer a call of the machine. -/
def serve (s : Session) (e : Event) : Session × List Log.Record :=
  let (terminal, records) := s.terminal.serve e
  ({ s with terminal := terminal }, records)

/-- Take the first output failure. -/
def takeFailure (s : Session) : Session × Option IoFailure :=
  let (terminal, failure) := s.terminal.takeFailure
  ({ s with terminal := terminal }, failure)

/-- A session as surroundings of a machine, where `arrivals n` is what arrives before input is taken
in for the time `n`, counted from zero, and after the time before. -/
def surroundings (arrivals : Nat → List Input) : Surroundings Session where
  pump s := (s.pump (arrivals s.pumps), none)
  quitting s := s.terminal.quitting
  keys s := s.terminal.down
  serve := serve
  takeFailure := takeFailure

end Session

end Chip8
