import Chip8.Program
import Chip8.Terminal.Reading

/-!
# The command

Runs the program on a real terminal, which is expected to pass typed bytes on at once.  Input is
read by a task of its own, so that a frame never waits for it; all decisions are those of `Program`
and `FrameLoop`.
-/

namespace Chip8

namespace Main

/-- Wording of a failed operation. -/
def reason (e : IO.Error) : String :=
  match e with
  | .noFileOrDirectory .. => FileError.message .notFound
  | .inappropriateType .. => FileError.message .isADirectory
  | e => toString e

/-- Say on the error output what failed, and give the exit code. -/
def fail (message : String) (cause : IO.Error) : IO UInt32 := do
  (← IO.getStderr).putStr (Program.errorText message (some (reason cause)))
  return 1

/-- Append what a journal has collected to the log file, and start it anew. -/
def flushJournal (file : IO.FS.Handle) (j : Log.Journal) : IO Log.Journal := do
  file.putStr j.sink.text
  file.flush
  return .ofVerbosity j.verbosity

/-- Send to the terminal what a session has written, and start anew. -/
def flushScreen (t : Terminal) : IO Terminal := do
  let out ← IO.getStdout
  out.write t.pipe.taken
  out.flush
  return { t with pipe := { t.pipe with taken := .empty } }

/-- Collect typed bytes for ever. -/
partial def collect (typed : IO.Ref ByteArray) : IO Unit := do
  let bytes ← (← IO.getStdin).read 64
  if bytes.isEmpty then return
  typed.modify (· ++ bytes)
  collect typed

/-- Run frames until the loop stops, with a reader of typed bytes. -/
partial def frames (typed : IO.Ref ByteArray) (file : IO.FS.Handle) (o : Options)
    (reading : Reading) (l : FrameLoop Session) :
    IO (FrameLoop Session × Except RunFailure Ending) := do
  let begun ← IO.monoNanosNow
  let bytes ← typed.swap .empty
  let (inputs, reading) := if bytes.isEmpty then ([], reading) else reading.read false bytes.toList
  match FrameLoop.round (Session.surroundings fun _ => inputs) o.frames l with
  | .stop l result => return (l, result)
  | .goOn l =>
    let journal ← flushJournal file l.journal
    let terminal ← flushScreen l.around.terminal
    let spent := (← IO.monoNanosNow) - begun
    IO.sleep ((o.framePeriod - spent) / 1000000).toUInt32
    frames typed file o reading
      { l with journal := journal, around := { l.around with terminal := terminal } }

/-- Random bytes from a seed, one for each number. -/
def diceOf (seed : Nat) : Dice :=
  Dice.ofFaces fun n =>
    let mixed := (n.toUInt64 + seed.toUInt64) * 0x9E3779B97F4A7C15
    let mixed := (mixed ^^^ (mixed >>> 31)) * 0xBF58476D1CE4E5B9
    (mixed >>> 56).toUInt8

/-- Put where it belongs what a run has written. -/
def put : Written → IO Unit
  | .screen bytes => do
    let out ← IO.getStdout
    out.write bytes
    out.flush
  | .errors text => do (← IO.getStderr).putStr text

/-- Put what a run came to on the terminal, on the error output and into the log. -/
def conclude (file : IO.FS.Handle) (p : Performance) : IO UInt32 := do
  p.written.forM put
  discard (flushJournal file p.journal)
  return p.exit.toUInt32

/-- Run a program on the terminal with a log file that is open. -/
def play (o : Options) (rom : ByteArray) (file : IO.FS.Handle) : IO UInt32 := do
  let session := Program.sessionAt false o.mute
  let dice := diceOf (← IO.rand 0 UInt32.size)
  let journal := (Log.Journal.ofVerbosity o.verbosity).log (Program.loadedRecord o.rom rom.size)
  match Program.assemble o rom.data dice session journal with
  | (journal, .error e) => conclude file (Program.unassembled session journal e)
  | (journal, .ok machine) =>
    let terminal ← flushScreen session.terminal
    let typed ← IO.mkRef ByteArray.empty
    discard (IO.asTask (collect typed) .dedicated)
    let session := { session with terminal := terminal }
    let (l, result) ← frames typed file o .start
      (FrameLoop.start machine session journal o.framePeriod)
    conclude file (Program.stopped l result)

/-- Open the log file, read the program, and run it. -/
def start (o : Options) : IO UInt32 := do
  match ← (IO.FS.Handle.mk o.logFile .write).toBaseIO with
  | .error e => fail ("cannot create log file " ++ o.logFile) e
  | .ok file =>
    match ← (IO.FS.readBinFile o.rom).toBaseIO with
    | .error e => fail ("cannot read ROM " ++ o.rom) e
    | .ok rom => play o rom file

end Main

end Chip8

open Chip8 in
/-- Read the arguments and run, or say why not. -/
def main (arguments : List String) : IO UInt32 := do
  match CommandLine.read arguments with
  | .ok o => Main.start o
  | .error refusal =>
    let name := CommandLine.commandName (some (← IO.appPath).toString)
    let outcome := Program.refused ⟨[], []⟩ none name refusal
    outcome.written.forM Main.put
    return outcome.exit.toUInt32
