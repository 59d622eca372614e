import Chip8.Machine.Execute

/-!
# Assembling a machine

A machine is assembled from its surroundings, a program and a tuning.  Surroundings and program may
be missing; what is missing first is reported.
-/

namespace Chip8

/-- Why no machine could be assembled. -/
inductive AssemblyError where
  /-- There is nothing for the machine to talk to. -/
  | missingSurroundings
  /-- There is no program. -/
  | missingProgram
  /-- The program was not loaded. -/
  | load (fault : Fault)
  deriving DecidableEq, Repr

namespace AssemblyError

/-- The sentence shown to the user. -/
def message : AssemblyError → String
  | missingSurroundings => "context not provided"
  | missingProgram => "program not provided"
  | load fault => "cannot load program: " ++ fault.message

/-- The sentence about the cause behind the error, if there is one. -/
def cause? : AssemblyError → Option String
  | missingSurroundings | missingProgram => none
  | load fault => some fault.message

end AssemblyError

/-- The parts that a machine is assembled from. -/
structure Parts where
  /-- Where random bytes come from; it stands for the surroundings of the machine. -/
  surroundings : Option Dice
  /-- The program. -/
  program : Option (Array UInt8)
  /-- What the user has set. -/
  tuning : Tuning

namespace Machine

/-- Put the font into memory. -/
def installFont (m : Machine) : Effect :=
  ⟨{ m with memory := m.memory.installFont }, [.notice .fontInstalled]⟩

/-- Put a program into memory; a program that does not fit changes nothing. -/
def install (m : Machine) (program : Array UInt8) : Except Fault Effect :=
  match m.memory.install program with
  | .ok memory => .ok ⟨{ m with memory := memory }, [.notice (.programInstalled program.size)]⟩
  | .error fault => .error fault

/-- A machine with the standard tuning, the font and a program in memory. -/
def ofProgram (dice : Dice) (program : Array UInt8) : Except Fault Effect :=
  let font := (blank .standard dice).installFont
  (font.machine.install program).map fun e => ⟨e.machine, font.events ++ e.events⟩

end Machine

namespace Parts

/-- The events of assembling, and the machine with font and program in memory or the reason why
there is none. -/
def assemble (p : Parts) : List Event × Except AssemblyError Machine :=
  match p.surroundings, p.program with
  | none, _ => ([], .error .missingSurroundings)
  | some _, none => ([], .error .missingProgram)
  | some dice, some program =>
    let font := (Machine.blank p.tuning dice).installFont
    match font.machine.install program with
    | .error fault => (font.events, .error (.load fault))
    | .ok e => (font.events ++ e.events, .ok e.machine)

end Parts

end Chip8
