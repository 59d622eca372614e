import Chip8.CommandLine
import Chip8.Text.Plain

/-!
# Help and version

The texts that answer `--help` and `--version`.
-/

namespace Chip8

namespace CommandLine

/-- The name and the number of this version. -/
def versionText : String := "plum8-host 0.1.0\n"

/-- The name of the program when the command that started it has none. -/
def fallbackName : String := "plum8-host"

/-- The last part of a path that is neither empty nor a single dot, unless it leads upwards. -/
def baseName? (path : String) : Option String :=
  match ((path.splitOn "/").filter fun part => part ≠ "" ∧ part ≠ ".").getLast? with
  | none => none
  | some part => if part = ".." then none else some part

/-- The name under which a command shows up in the help text. -/
def commandName (command : Option String) : String :=
  (command.bind baseName?).getD fallbackName

/-- The usage line, with the name as plain text. -/
def usage (name : String) : String := "Usage: " ++ Plain.ofText name ++ " [OPTIONS] <ROM>"

/-- The explanation of the arguments. -/
def helpText (name : String) : String :=
  "Run a CHIP-8 program in the terminal\n" ++
  "\n" ++
  usage name ++ "\n" ++
  "\n" ++
  "Arguments:\n" ++
  "  <ROM>  Path to the ROM file to run\n" ++
  "\n" ++
  "Options:\n" ++
  "  -s, --speed <SPEED>            Instructions executed per frame [default: 10]\n" ++
  "  -f, --frame-rate <FRAME_RATE>  Frames per second, timers tick once per frame [default: 60]\n" ++
  "      --frames <FRAMES>          Quit after this many frames\n" ++
  "  -l, --log-level <LOG_LEVEL>    Most verbose level written to the log file [default: INFO]\n" ++
  "      --log-file <LOG_FILE>      File the log is written to [default: plum8.log]\n" ++
  "  -m, --mute                     Do not ring the terminal bell\n" ++
  "  -h, --help                     Print help\n" ++
  "  -V, --version                  Print version\n"

/-- What is wrong with the arguments, in one sentence. -/
def Refusal.sentence : Refusal → String
  | .missingRom => "the following required arguments were not provided: <ROM>"
  | .unknownArgument => "unexpected argument found"
  | .repeated => "an argument cannot be used multiple times"
  | .missingValue => "a value is required but none was supplied"
  | .badValue => "invalid value for an argument"
  | .unneededValue => "unexpected value for an argument"
  | .help => "help was asked for"
  | .version => "the version was asked for"

/-- The text that a refusal puts on the error output. -/
def Refusal.report (r : Refusal) (name : String) : String :=
  "error: " ++ r.sentence ++ "\n\n" ++ usage name ++ "\n\nFor more information, try '--help'.\n"

end CommandLine

end Chip8
