import Chip8.Options
import Chip8.Text.Number

/-!
# The command line

Arguments are read from left to right.  An argument names the program to run, or is an option or a
switch, in its long form `--name` or its short form `-x`; short forms may be written together.  The
value of an option follows as the next argument, after an equals sign, or directly after its short
form.  After the argument `--` nothing is an option any more.

A value that stands in an argument of its own is examined only when the next option or path is met,
or at the end, and the first problem met in this order is the one reported.
-/

namespace Chip8

namespace CommandLine

/-! ### The names -/

/-- An option, which takes a value. -/
inductive Setting where
  /-- Instructions in a frame. -/
  | speed
  /-- Frames in a second. -/
  | frameRate
  /-- Frames in the whole run. -/
  | frames
  /-- How much is logged. -/
  | logLevel
  /-- Where the log goes. -/
  | logFile
  deriving DecidableEq, Repr

/-- A switch, which takes no value. -/
inductive Switch where
  /-- Keep the bell silent. -/
  | mute
  /-- Explain the arguments. -/
  | help
  /-- Say which version this is. -/
  | version
  deriving DecidableEq, Repr

/-- What a name on the command line stands for. -/
inductive Named where
  /-- An option. -/
  | setting (s : Setting)
  /-- A switch. -/
  | switch (s : Switch)
  deriving DecidableEq, Repr

/-- What a long name stands for. -/
def longName? : String → Option Named
  | "speed" => some (.setting .speed)
  | "frame-rate" => some (.setting .frameRate)
  | "frames" => some (.setting .frames)
  | "log-level" => some (.setting .logLevel)
  | "log-file" => some (.setting .logFile)
  | "mute" => some (.switch .mute)
  | "help" => some (.switch .help)
  | "version" => some (.switch .version)
  | _ => none

/-- What a short name stands for. -/
def shortName? : Char → Option Named
  | 's' => some (.setting .speed)
  | 'f' => some (.setting .frameRate)
  | 'l' => some (.setting .logLevel)
  | 'm' => some (.switch .mute)
  | 'h' => some (.switch .help)
  | 'V' => some (.switch .version)
  | _ => none

/-! ### Refusals -/

/-- Why the arguments do not lead to a run. -/
inductive Refusal where
  /-- No program was named. -/
  | missingRom
  /-- An argument stands for nothing. -/
  | unknownArgument
  /-- An option or a switch was given twice. -/
  | repeated
  /-- An option lacks its value, or a path is empty. -/
  | missingValue
  /-- The value of an option is not one that it may have. -/
  | badValue
  /-- A switch was given a value. -/
  | unneededValue
  /-- The user asked for an explanation. -/
  | help
  /-- The user asked for the version. -/
  | version
  deriving DecidableEq, Repr

/-! ### Reading -/

/-- What has been read but not examined. -/
inductive Pending where
  /-- Nothing. -/
  | nothing
  /-- The name of an option whose value has not been met. -/
  | name (s : Setting)
  /-- An option with the value that was met after it. -/
  | value (s : Setting) (text : String)
  /-- The path of the program. -/
  | path (text : String)
  deriving DecidableEq, Repr

/-- The options read so far. -/
structure Draft where
  /-- The path of the program. -/
  rom : Option String
  /-- The value of `--speed`. -/
  speed : Option Nat
  /-- The value of `--frame-rate`. -/
  frameRate : Option Nat
  /-- The value of `--frames`. -/
  frames : Option Nat
  /-- The value of `--log-level`. -/
  verbosity : Option Log.Verbosity
  /-- The value of `--log-file`. -/
  logFile : Option String
  /-- Whether `--mute` was given. -/
  mute : Bool
  /-- What is still to be examined. -/
  pending : Pending
  /-- Whether the path of the program was met. -/
  pathMet : Bool
  /-- Whether the argument `--` was met. -/
  namesOver : Bool
  deriving DecidableEq, Repr

namespace Draft

/-- Nothing read yet. -/
def empty : Draft where
  rom := none
  speed := none
  frameRate := none
  frames := none
  verbosity := none
  logFile := none
  mute := false
  pending := .nothing
  pathMet := false
  namesOver := false

/-- Whether an option has its value already. -/
def holds (d : Draft) : Setting → Bool
  | .speed => d.speed.isSome
  | .frameRate => d.frameRate.isSome
  | .frames => d.frames.isSome
  | .logLevel => d.verbosity.isSome
  | .logFile => d.logFile.isSome

/-- A path, which may not be empty. -/
def path (text : String) : Except Refusal String :=
  if text.isEmpty then .error .missingValue else .ok text

/-- A value that may fail to be one. -/
def valid {α : Type} (value : Option α) : Except Refusal α :=
  match value with
  | some a => .ok a
  | none => .error .badValue

/-- A number, which has to fit into 64 bits. -/
def number? (text : String) : Option Nat := Number.below? UInt64.size text.toList

/-- A frame rate, from 1 to 1000. -/
def rate? (text : String) : Option Nat :=
  (number? text).filter fun n => 1 ≤ n ∧ n ≤ 1000

/-- Give an option its value.  That an option is given twice is noticed before its value is
examined. -/
def assign (d : Draft) (s : Setting) (text : String) : Except Refusal Draft :=
  if d.holds s then .error .repeated
  else match s with
    | .speed => (valid (number? text)).map fun n => { d with speed := some n }
    | .frameRate => (valid (rate? text)).map fun n => { d with frameRate := some n }
    | .frames => (valid (number? text)).map fun n => { d with frames := some n }
    | .logLevel => (valid (Log.Verbosity.ofName? text)).map fun v => { d with verbosity := some v }
    | .logFile => (path text).map fun p => { d with logFile := some p }

/-- Turn a switch on. -/
def turnOn (d : Draft) : Switch → Except Refusal Draft
  | .mute => if d.mute then .error .repeated else .ok { d with mute := true }
  | .help => .error .help
  | .version => .error .version

/-- Examine what is pending. -/
def settle (d : Draft) : Except Refusal Draft :=
  let rest := { d with pending := .nothing }
  match d.pending with
  | .nothing => .ok rest
  | .name _ => .error .missingValue
  | .value s text => rest.assign s text
  | .path text => (path text).map fun p => { rest with rom := some p }

/-- Meet the name of an option, with the value that is attached to it, if there is one. -/
def meetSetting (d : Draft) (s : Setting) (attached : Option String) : Except Refusal Draft := do
  let d ← d.settle
  match attached with
  | some text => d.assign s text
  | none => .ok { d with pending := .name s }

/-- Meet the name of a switch. -/
def meetSwitch (d : Draft) (s : Switch) : Except Refusal Draft := do
  let d ← d.settle
  d.turnOn s

/-- Meet a path. -/
def meetPath (d : Draft) (text : String) : Except Refusal Draft :=
  if d.pathMet then .error .unknownArgument
  else d.settle.map fun d => { d with pending := .path text, pathMet := true }

/-- Meet a long form: a name, and the value after its equals sign. -/
def meetLong (d : Draft) (name : String) (attached : Option String) : Except Refusal Draft :=
  match longName? name with
  | none => .error .unknownArgument
  | some (.setting s) => d.meetSetting s attached
  | some (.switch s) => if attached.isSome then .error .unneededValue else d.meetSwitch s

/-- Meet short forms written together; the first option among them takes the rest as its value. -/
def meetShort (d : Draft) : List Char → Except Refusal Draft
  | [] => .ok d
  | c :: cs =>
    match shortName? c with
    | none => .error .unknownArgument
    | some (.switch s) => do
      let d ← d.meetSwitch s
      d.meetShort cs
    | some (.setting s) =>
      d.meetSetting s <| match cs with
        | [] => none
        | '=' :: rest => some (String.ofList rest)
        | rest => some (String.ofList rest)

/-- Meet an argument that is neither an option nor a switch. -/
def meetPlain (d : Draft) (text : String) : Except Refusal Draft :=
  match d.pending with
  | .name s => .ok { d with pending := .value s text }
  | _ => d.meetPath text

/-- Meet an argument. -/
def meet (d : Draft) (argument : String) : Except Refusal Draft :=
  if d.namesOver then d.meetPath argument
  else match argument.toList with
    | ['-', '-'] => .ok { d with namesOver := true }
    | '-' :: '-' :: cs =>
      let name := String.ofList (cs.takeWhile (· ≠ '='))
      match cs.dropWhile (· ≠ '=') with
      | [] => d.meetLong name none
      | _ :: rest => d.meetLong name (some (String.ofList rest))
    | '-' :: c :: cs => d.meetShort (c :: cs)
    | _ => d.meetPlain argument

/-- The options, once all arguments were met; what was not given is as usual. -/
def finish (d : Draft) : Except Refusal Options := do
  let d ← d.settle
  match d.rom with
  | none => .error .missingRom
  | some rom =>
    let usual := Options.ofRom rom
    .ok
      { rom := rom
        speed := d.speed.getD usual.speed
        frameRate := d.frameRate.getD usual.frameRate
        frames := d.frames
        verbosity := d.verbosity.getD usual.verbosity
        logFile := d.logFile.getD usual.logFile
        mute := d.mute }

end Draft

/-- The options that the arguments spell, or why they spell none. -/
def read (arguments : List String) : Except Refusal Options := do
  let d ← arguments.foldlM Draft.meet Draft.empty
  d.finish

end CommandLine

end Chip8
