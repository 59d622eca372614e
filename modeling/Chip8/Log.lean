/-!
# Log records

A record has a level, the module it comes from and a message; a log is kept up to some verbosity.
`Record.line` is the line that a record becomes.
-/

namespace Chip8

namespace Log

/-- How grave a record is, the gravest first. -/
inductive Level where
  /-- The program cannot go on. -/
  | error
  /-- Something went wrong and the program goes on. -/
  | warn
  /-- What the program does, in large steps. -/
  | info
  /-- What the program does, in small steps. -/
  | debug
  /-- Every instruction. -/
  | trace
  deriving DecidableEq, Repr

namespace Level

/-- The place of a level, from 1 for the gravest. -/
def rank : Level → Nat
  | error => 1
  | warn => 2
  | info => 3
  | debug => 4
  | trace => 5

/-- The name of a level, in capitals. -/
def name : Level → String
  | error => "ERROR"
  | warn => "WARN"
  | info => "INFO"
  | debug => "DEBUG"
  | trace => "TRACE"

end Level

/-- How much is logged: nothing, or the records up to a level. -/
inductive Verbosity where
  /-- Nothing. -/
  | off
  /-- The records up to a level. -/
  | upTo (level : Level)
  deriving DecidableEq, Repr

namespace Verbosity

/-- The rank of the last level that is logged, 0 for none. -/
def rank : Verbosity → Nat
  | off => 0
  | upTo level => level.rank

/-- Whether records of a level are logged. -/
def admits (v : Verbosity) (level : Level) : Bool := level.rank ≤ v.rank

/-- Every verbosity, the quietest first. -/
def all : List Verbosity :=
  [off, upTo .error, upTo .warn, upTo .info, upTo .debug, upTo .trace]

/-- The name of a verbosity, in capitals. -/
def name : Verbosity → String
  | off => "OFF"
  | upTo level => level.name

/-- The verbosity with a given name, in letters of either case. -/
def ofName? (s : String) : Option Verbosity :=
  all.find? fun v => v.name = s.toUpper

end Verbosity

/-- One thing to be logged. -/
structure Record where
  /-- How grave it is. -/
  level : Level
  /-- The module that it comes from, if that is known. -/
  origin : Option String
  /-- What stands for the module if that is not known. -/
  target : String
  /-- What there is to say. -/
  message : String
  deriving DecidableEq, Repr

namespace Record

/-- A level name filled with spaces to the width of the longest one. -/
def tag (level : Level) : String :=
  level.name ++ String.ofList (List.replicate (5 - level.name.length) ' ')

/-- The line that a record becomes: its level and its module in brackets, and its message. -/
def line (r : Record) : String :=
  "[" ++ tag r.level ++ "][" ++ r.origin.getD r.target ++ "] " ++ r.message ++ "\n"

end Record

end Log

end Chip8
