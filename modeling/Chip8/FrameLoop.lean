import Chip8.Machine.Cycle
import Chip8.Log.Journal
import Chip8.Terminal.Pipe
import Chip8.Text.Period

/-!
# The frame loop

The loop drives a machine and its surroundings, one frame after the other, until a frame limit is
reached, the user wants to quit, or something fails.  Surroundings are a state with five operations
on it, so that a terminal and a prepared sequence of events are run by the same loop.

* `FrameLoop.round` : one frame; either the loop goes on or it stops with a result.
* `FrameLoop.run` : frames until the loop stops, as long as the given number of frames lasts.
-/

namespace Chip8

/-- What surrounds a machine: the operations on a state `σ`. -/
structure Surroundings (σ : Type) where
  /-- Take pending input in. -/
  pump : σ → σ × Option IoFailure
  /-- Whether the user wants to quit. -/
  quitting : σ → Bool
  /-- The keys that are down. -/
  keys : σ → KeySet
  /-- Answer a call of the machine. -/
  serve : σ → Event → σ × List Log.Record
  /-- Take the first output failure since it was taken last. -/
  takeFailure : σ → σ × Option IoFailure

/-- Why a loop stopped without a failure. -/
inductive Ending where
  /-- The user wanted to quit. -/
  | quit
  /-- The frame limit was reached. -/
  | frameLimit
  deriving DecidableEq, Repr

namespace Ending

/-- The name of an ending. -/
def name : Ending → String
  | quit => "Quit"
  | frameLimit => "FrameLimit"

end Ending

/-- Why a loop failed. -/
inductive RunFailure where
  /-- The machine halted. -/
  | machine (fault : Fault)
  /-- Input could not be taken in. -/
  | input (failure : IoFailure)
  /-- Output could not be sent. -/
  | output (failure : IoFailure)
  deriving DecidableEq, Repr

namespace RunFailure

/-- The outermost sentence about a failure. -/
def message : RunFailure → String
  | machine fault => fault.message
  | input _ => "cannot read terminal events"
  | output _ => "cannot write to terminal"

/-- The sentence about what is behind a failure, if anything is. -/
def cause? : RunFailure → Option String
  | machine _ => none
  | input failure | output failure => some failure.message

/-- All that there is to say about a failure, in one line. -/
def chain (f : RunFailure) : String :=
  match f.cause? with
  | none => f.message
  | some cause => f.message ++ ": " ++ cause

end RunFailure

/-- A loop between two frames. -/
structure FrameLoop (σ : Type) where
  /-- The machine. -/
  machine : Machine
  /-- The state of its surroundings. -/
  around : σ
  /-- The log. -/
  journal : Log.Journal
  /-- Frames completed. -/
  frames : Nat

namespace FrameLoop

variable {σ : Type}

/-- The module under which the loop logs. -/
def origin : String := "plum8_host::runner"

/-- A record of the loop. -/
def info (message : String) : Log.Record where
  level := .info
  origin := some origin
  target := origin
  message := message

/-- Whether a frame limit is reached. -/
def limitReached (l : FrameLoop σ) (limit : Option Nat) : Bool :=
  limit.any (· ≤ l.frames)

/-- Hand an event on: a notice to the log, a call to the surroundings. -/
def deliver (s : Surroundings σ) (l : FrameLoop σ) (e : Event) : FrameLoop σ :=
  match e with
  | .notice n => { l with journal := l.journal.enter n.level fun _ => n.record }
  | _ =>
    let (around, records) := s.serve l.around e
    { l with around := around, journal := l.journal.logAll records }

/-- Write a record of the loop itself. -/
def say (l : FrameLoop σ) (message : String) : FrameLoop σ :=
  { l with journal := l.journal.log (info message) }

/-- How a frame of the loop ends. -/
inductive Round (σ : Type) where
  /-- There is a next frame. -/
  | goOn (l : FrameLoop σ)
  /-- The loop stops. -/
  | stop (l : FrameLoop σ) (result : Except RunFailure Ending)

/-- The second half of a frame: run the machine, and look for an output failure. -/
def present (s : Surroundings σ) (l : FrameLoop σ) : Round σ :=
  let turn := l.machine.cycle (s.keys l.around)
  let l := turn.events.foldl (deliver s) { l with machine := turn.machine }
  match turn.status with
  | .halted fault => .stop l (.error (.machine fault))
  | .done | .blocked =>
    match s.takeFailure l.around with
    | (around, some failure) => .stop { l with around := around } (.error (.output failure))
    | (around, none) => .goOn { l with around := around, frames := l.frames + 1 }

/-- One frame: the limit, the input, the wish to quit, the machine, the output. -/
def round (s : Surroundings σ) (limit : Option Nat) (l : FrameLoop σ) : Round σ :=
  if l.limitReached limit then
    .stop (l.say ("stopping after " ++ toString l.frames ++ " frames")) (.ok .frameLimit)
  else
    match s.pump l.around with
    | (around, some failure) => .stop { l with around := around } (.error (.input failure))
    | (around, none) =>
      let l := { l with around := around }
      if s.quitting around then
        .stop (l.say ("quit requested after " ++ toString l.frames ++ " frames")) (.ok .quit)
      else present s l

/-- Frames until the loop stops; nothing, if it has not stopped after `fuel` of them. -/
def runFrom (s : Surroundings σ) (limit : Option Nat) :
    Nat → FrameLoop σ → Option (FrameLoop σ × Except RunFailure Ending)
  | 0, _ => none
  | fuel + 1, l =>
    match round s limit l with
    | .stop l result => some (l, result)
    | .goOn l => runFrom s limit fuel l

/-- A loop before its first frame, which has announced the time between two frames. -/
def start (machine : Machine) (around : σ) (journal : Log.Journal) (period : Nat) : FrameLoop σ :=
  say ⟨machine, around, journal, 0⟩ ("running at one frame per " ++ Period.text period)

/-- Run a machine until the loop stops; nothing, if it has not stopped after `fuel` frames. -/
def run (s : Surroundings σ) (limit : Option Nat) (period fuel : Nat) (machine : Machine)
    (around : σ) (journal : Log.Journal) :
    Option (FrameLoop σ × Except RunFailure Ending) :=
  runFrom s limit fuel (start machine around journal period)

end FrameLoop

end Chip8
