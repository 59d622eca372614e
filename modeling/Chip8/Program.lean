import Chip8.CommandLine.Help
import Chip8.Machine.Assembly
import Chip8.Program.Files
import Chip8.Session

/-!
# The program

A run of the program from its arguments to its exit: reading the options, opening the log file,
reading the program to run, taking the terminal over, running frames, and giving the terminal back
before anything is said about the outcome.

* `Program.play` : the run from the moment the terminal is taken over.
* `Program.run` : the whole run.
-/

namespace Chip8

/-- The terminal that a run is started on. -/
structure Seat where
  /-- Whether the terminal can tell when keys go up. -/
  able : Bool
  /-- What arrives at it in each frame, until input is taken in there. -/
  arrivals : Nat → List Input

/-- What a run is started with. -/
structure Start where
  /-- The command that started it. -/
  command : Option String
  /-- The arguments after the command. -/
  arguments : List String
  /-- The files that there are. -/
  files : Files
  /-- The terminal, if there is one. -/
  seat : Option Seat
  /-- Where random bytes come from. -/
  dice : Dice

/-- Something that a run wrote. -/
inductive Written where
  /-- To the terminal, or to the output if there is no terminal. -/
  | screen (bytes : ByteArray)
  /-- To the error output. -/
  | errors (text : String)

/-- What a run leaves behind. -/
structure Outcome where
  /-- The exit code. -/
  exit : Nat
  /-- What was written, in order. -/
  written : List Written
  /-- The files afterwards. -/
  files : Files

/-- What a run on a terminal comes to. -/
structure Performance where
  /-- The exit code. -/
  exit : Nat
  /-- What was written, in order. -/
  written : List Written
  /-- The log. -/
  journal : Log.Journal

namespace Program

/-- The module under which the program itself logs. -/
def origin : String := "plum8"

/-- A record of the program itself. -/
def record (level : Log.Level) (message : String) : Log.Record where
  level := level
  origin := some origin
  target := origin
  message := message

/-- What a failure puts on the error output: its sentence, and the cause behind it, indented. -/
def errorText (message : String) (cause : Option String) : String :=
  "Error: " ++ message ++
    (match cause with
      | none => ""
      | some c => "\n\nCaused by:\n    " ++ c) ++ "\n"

/-- A run that failed before the terminal was taken over. -/
def failed (files : Files) (message : String) (cause : String) : Outcome where
  exit := 1
  written := [.errors (errorText message (some cause))]
  files := files

/-- What arrives of a text that is put out, at a terminal that is not taken over or elsewhere. -/
def arriving (seat : Option Seat) (text : String) : Written :=
  .screen (if seat.isSome then Terminal.withReturns text else text).toUTF8

/-- A run that was refused, or that only explained itself. -/
def refused (files : Files) (seat : Option Seat) (name : String) : CommandLine.Refusal → Outcome
  | .help => ⟨0, [arriving seat (CommandLine.helpText name)], files⟩
  | .version => ⟨0, [arriving seat CommandLine.versionText], files⟩
  | r => ⟨2, [.errors (r.report name)], files⟩

/-- The record of a program that was read. -/
def loadedRecord (rom : String) (size : Nat) : Log.Record :=
  record .info ("loaded " ++ rom ++ " (" ++ toString size ++ " bytes)")

/-- The last record of a run whose frame loop stopped. -/
def closing : Except RunFailure Ending → Log.Record
  | .ok ending => record .info ("finished: " ++ ending.name)
  | .error failure => record .error failure.chain

/-- What is said on the error output about a frame loop that stopped. -/
def closingErrors : Except RunFailure Ending → List Written
  | .ok _ => []
  | .error failure => [.errors (errorText failure.message failure.cause?)]

/-- The exit code of a run whose frame loop stopped. -/
def closingCode : Except RunFailure Ending → Nat
  | .ok _ => 0
  | .error _ => 1

/-- The session at a terminal that was just taken over. -/
def sessionAt (able mute : Bool) : Session where
  terminal := (Terminal.over .healthy mute).enter able
  inbox := []
  pumps := 0

/-- What a session has written to its terminal once it has given it back. -/
def givenBack (session : Session) : Written := .screen session.terminal.leave.pipe.taken

/-- Assemble the machine for a session, and log what that had to say. -/
def assemble (o : Options) (rom : Array UInt8) (dice : Dice) (session : Session)
    (journal : Log.Journal) : Log.Journal × Except AssemblyError Machine :=
  let (events, assembled) := Parts.assemble ⟨some dice, some rom, o.tuning⟩
  let notices := events.filterMap Event.notice?
  ((journal.log session.terminal.readyRecord).logAll (notices.map Notice.record), assembled)

/-- What is left once a machine could not be assembled: the terminal is given back, and then it is
said what failed. -/
def unassembled (session : Session) (journal : Log.Journal) (e : AssemblyError) : Performance where
  exit := 1
  written := [givenBack session, .errors (errorText e.message e.cause?)]
  journal := journal

/-- What is left once the frame loop stopped: the terminal is given back, and then it is said what
failed, if anything did. -/
def stopped (l : FrameLoop Session) (result : Except RunFailure Ending) : Performance where
  exit := closingCode result
  written := givenBack l.around :: closingErrors result
  journal := (l.journal.log (closing result)).flush

/-- A run from the moment the terminal is taken over; nothing, if it has not ended after `fuel`
frames. -/
def play (o : Options) (rom : Array UInt8) (seat : Seat) (dice : Dice) (journal : Log.Journal)
    (fuel : Nat) : Option Performance :=
  let session := sessionAt seat.able o.mute
  match assemble o rom dice session journal with
  | (journal, .error e) => some (unassembled session journal e)
  | (journal, .ok machine) =>
    (FrameLoop.run (Session.surroundings seat.arrivals) o.frames o.framePeriod fuel machine session
      journal).map fun (l, result) => stopped l result

/-- The whole run; nothing, if it has not ended after `fuel` frames. -/
def run (s : Start) (fuel : Nat) : Option Outcome :=
  match CommandLine.read s.arguments with
  | .error refusal => some (refused s.files s.seat (CommandLine.commandName s.command) refusal)
  | .ok o =>
    match s.files.create o.logFile with
    | .error e => some (failed s.files ("cannot create log file " ++ o.logFile) e.message)
    | .ok (place, files) =>
      match files.read o.rom with
      | .error e => some (failed files ("cannot read ROM " ++ o.rom) e.message)
      | .ok rom =>
        let journal := (Log.Journal.ofVerbosity o.verbosity).log (loadedRecord o.rom rom.size)
        let keep (j : Log.Journal) : Files := files.put place j.sink.text.toUTF8
        match s.seat with
        | none =>
          some (failed (keep journal) "cannot set up terminal"
            "No such device or address (os error 6)")
        | some seat =>
          (play o rom.data seat s.dice journal fuel).map fun p =>
            ⟨p.exit, p.written, keep p.journal⟩

end Program

end Chip8
