import Chip8.Log

/-!
# The journal

A journal writes the lines of the records that its verbosity admits to a sink.  A broken sink takes
nothing, and the journal goes on as if it had.
-/

namespace Chip8

namespace Log

/-- What a journal writes to. -/
structure Sink where
  /-- Whether every write to it and every flush of it fails. -/
  broken : Bool
  /-- The text that it has taken. -/
  text : String
  /-- How often it was asked to flush. -/
  flushes : Nat
  deriving DecidableEq

namespace Sink

/-- A sink that has taken nothing yet. -/
def fresh (broken : Bool) : Sink := ⟨broken, "", 0⟩

/-- Append text; a broken sink takes nothing. -/
def append (s : Sink) (text : String) : Sink :=
  if s.broken then s else { s with text := s.text ++ text }

end Sink

/-- A journal. -/
structure Journal where
  /-- Which records it keeps. -/
  verbosity : Verbosity
  /-- Where their lines go. -/
  sink : Sink
  deriving DecidableEq

namespace Journal

/-- An empty journal over a healthy sink. -/
def ofVerbosity (v : Verbosity) : Journal := ⟨v, .fresh false⟩

/-- Write the line of a record that the verbosity admits; its text is only formed if it is kept. -/
def enter (j : Journal) (level : Level) (record : Unit → Record) : Journal :=
  if j.verbosity.admits level then { j with sink := j.sink.append (record ()).line } else j

/-- Write a record. -/
def log (j : Journal) (r : Record) : Journal := j.enter r.level fun _ => r

/-- Write records one after the other. -/
def logAll (j : Journal) (rs : List Record) : Journal := rs.foldl log j

/-- Ask the sink to flush. -/
def flush (j : Journal) : Journal :=
  { j with sink := { j.sink with flushes := j.sink.flushes + 1 } }

end Journal

end Log

end Chip8
