import Chip8.Proofs.Machine.History
import Chip8.Proofs.Memory.Installing

/-!
# Loading a program and assembling a machine

A program is put into memory as a whole or not at all, and a machine is assembled from its parts in
the same way as one that is made for a program; what is missing first is reported
(`Machine.loading_is_all_or_nothing`).

* `Machine.act_install_of_le`, `Machine.act_install_of_lt` : a machine with a program that fits, and
  with one that does not.
* `Machine.act_install_installFont` : font and program may be put into a machine in either order.
* `Machine.ofProgram_eq`, `Parts.assemble_cases` : both ways to make a machine lead to
  `Machine.loaded`, or are refused because of the size of the program.
-/

namespace Chip8

namespace Machine

/-- A machine with the font and a program. -/
def loaded (tuning : Tuning) (dice : Dice) (program : Array UInt8) : Machine :=
  ((blank tuning dice).act .installFont).act (.install program)

variable (m : Machine) {program : Array UInt8}

/-! ### Machines -/

theorem machine_installFont : m.installFont.machine = m.act .installFont := rfl

theorem install_of_le (h : program.size ≤ Memory.programLimit) :
    m.install program =
      .ok ⟨m.act (.install program), [.notice (.programInstalled program.size)]⟩ := by
  simp only [act, install, m.memory.install_of_le h]

theorem install_of_lt (h : Memory.programLimit < program.size) :
    m.install program = .error (.programTooLarge program.size Memory.programLimit) := by
  have refused := m.memory.install_eq_error_iff.2 ⟨h, rfl⟩
  simp only [install, refused]

theorem act_install_of_le (h : program.size ≤ Memory.programLimit) :
    m.act (.install program) =
      { m with memory := m.memory.overlay Memory.programStart.toNat program } := by
  simp only [act, install, m.memory.install_of_le h]

theorem act_install_of_lt (h : Memory.programLimit < program.size) :
    m.act (.install program) = m := by
  simp only [act, m.install_of_lt h]

theorem act_install_installFont :
    (m.act .installFont).act (.install program) = (m.act (.install program)).act .installFont := by
  rcases Nat.lt_or_ge Memory.programLimit program.size with large | fits
  · rw [act_install_of_lt _ large, act_install_of_lt _ large]
  · have program_last : (m.act .installFont).act (.install program) =
        { m with memory := m.memory.installFont.overlay Memory.programStart.toNat program } := by
      rw [act_installFont, act_install_of_le _ fits]
    have font_last : (m.act (.install program)).act .installFont =
        { m with memory := (m.memory.overlay Memory.programStart.toNat program).installFont } := by
      rw [act_install_of_le _ fits, act_installFont]
    rw [program_last, font_last, Memory.overlay_installFont]

/-- A machine for a program is a blank one with the font, unless that refuses the program. -/
theorem ofProgram_eq (dice : Dice) (program : Array UInt8) :
    (ofProgram dice program).map (·.machine) =
      if program.size ≤ Memory.programLimit then .ok (loaded .standard dice program)
      else .error (.programTooLarge program.size Memory.programLimit) := by
  rcases Nat.lt_or_ge Memory.programLimit program.size with large | fits
  · simp only [ofProgram, machine_installFont, install_of_lt _ large, if_neg (Nat.not_le.2 large),
      Except.map]
  · simp only [ofProgram, machine_installFont, install_of_le _ fits, if_pos fits, loaded,
      Except.map]

end Machine

namespace Parts

open Machine (loaded)

theorem assemble_of_le (dice : Dice) {program : Array UInt8} (tuning : Tuning)
    (h : program.size ≤ Memory.programLimit) :
    (Parts.mk (some dice) (some program) tuning).assemble.2 = .ok (loaded tuning dice program) := by
  simp only [assemble, Machine.machine_installFont, Machine.install_of_le _ h, loaded]

theorem assemble_of_lt (dice : Dice) {program : Array UInt8} (tuning : Tuning)
    (h : Memory.programLimit < program.size) :
    (Parts.mk (some dice) (some program) tuning).assemble.2 =
      .error (.load (.programTooLarge program.size Memory.programLimit)) := by
  simp only [assemble, Machine.machine_installFont, Machine.install_of_lt _ h]

variable {p : Parts}

/-- **What is missing first decides**; then the size of the program does. -/
theorem assemble_cases (p : Parts) :
    (p.surroundings = none ∧ p.assemble.2 = .error .missingSurroundings) ∨
    (∃ dice, p.surroundings = some dice ∧ p.program = none ∧
      p.assemble.2 = .error .missingProgram) ∨
    (∃ dice program, p.surroundings = some dice ∧ p.program = some program ∧
      Memory.programLimit < program.size ∧
      p.assemble.2 = .error (.load (.programTooLarge program.size Memory.programLimit))) ∨
    (∃ dice program, p.surroundings = some dice ∧ p.program = some program ∧
      program.size ≤ Memory.programLimit ∧
      p.assemble.2 = .ok (loaded p.tuning dice program)) := by
  rcases p with ⟨_ | dice, _ | program, tuning⟩
  · exact .inl ⟨rfl, rfl⟩
  · exact .inl ⟨rfl, rfl⟩
  · exact .inr (.inl ⟨dice, rfl, rfl, rfl⟩)
  · rcases Nat.lt_or_ge Memory.programLimit program.size with large | fits
    · exact .inr (.inr (.inl ⟨dice, program, rfl, rfl, large, assemble_of_lt dice tuning large⟩))
    · exact .inr (.inr (.inr ⟨dice, program, rfl, rfl, fits, assemble_of_le dice tuning fits⟩))

theorem assemble_eq_missingSurroundings_iff :
    p.assemble.2 = .error .missingSurroundings ↔ p.surroundings = none := by
  obtain ⟨missing, result⟩ | ⟨_, some, _, result⟩ | ⟨_, _, some, _, _, result⟩ |
    ⟨_, _, some, _, _, result⟩ := p.assemble_cases
  · simp [result, missing]
  · simp [result, some]
  · simp [result, some]
  · simp [result, some]

theorem assemble_eq_missingProgram_iff :
    p.assemble.2 = .error .missingProgram ↔
      p.surroundings.isSome = true ∧ p.program = none := by
  obtain ⟨missing, result⟩ | ⟨_, some, missing, result⟩ | ⟨_, _, _, some, _, result⟩ |
    ⟨_, _, _, some, _, result⟩ := p.assemble_cases
  · simp [result, missing]
  · simp [result, some, missing]
  · simp [result, some]
  · simp [result, some]

/-- The font lies in memory already when the program is put there, but makes no difference. -/
theorem assemble_eq_load_iff {f : Fault} :
    p.assemble.2 = .error (.load f) ↔
      p.surroundings.isSome = true ∧
        ∃ program, p.program = some program ∧ Memory.zero.install program = .error f := by
  simp only [Memory.install_eq_error_iff]
  obtain ⟨missing, result⟩ | ⟨_, _, missing, result⟩ | ⟨_, _, some, same, large, result⟩ |
    ⟨_, _, _, same, fits, result⟩ := p.assemble_cases
  · simp [result, missing]
  · simp [result, missing]
  · simp [result, some, same, large, eq_comm]
  · simp [result, same, Nat.not_lt.2 fits]

theorem assemble_eq_ok_iff {m : Machine} :
    p.assemble.2 = .ok m ↔
      ∃ dice program, p.surroundings = some dice ∧ p.program = some program ∧
        program.size ≤ Memory.programLimit ∧ m = loaded p.tuning dice program := by
  obtain ⟨missing, result⟩ | ⟨_, _, missing, result⟩ | ⟨_, _, _, same, large, result⟩ |
    ⟨_, _, some, same, fits, result⟩ := p.assemble_cases
  · simp [result, missing]
  · simp [result, missing]
  · simp [result, same, Nat.not_le.2 large]
  · simp [result, some, same, fits, eq_comm]

/-- With the standard tuning, a machine is assembled as it is made for a program. -/
theorem assemble_standard (dice : Dice) (program : Array UInt8) :
    (Parts.mk (some dice) (some program) .standard).assemble.2 =
      ((Machine.ofProgram dice program).map (·.machine)).mapError .load := by
  rw [Machine.ofProgram_eq]
  rcases Nat.lt_or_ge Memory.programLimit program.size with large | fits
  · rw [assemble_of_lt dice _ large, if_neg (Nat.not_le.2 large)]
    rfl
  · rw [assemble_of_le dice _ fits, if_pos fits]
    rfl

end Parts

namespace Machine

/-- **Loading is all or nothing, and the ways to make a machine agree.**

* A program is refused exactly if it has more than 3584 bytes.  If it is not, its bytes lie from
  `0x200` on and all others are as before.  The font changes the first 80 bytes at most.  It makes
  no difference which of them is put into memory first: the memory is the same, and so is the
  refusal.
* A machine is changed in its memory only, whatever its state, and not at all if the program is
  refused.
* Of the parts that a machine is assembled from, missing surroundings are reported first, then a
  missing program, and then that an empty memory refuses the program.  If nothing of this is the
  case, the machine is a blank one with the font and the program.  With the standard tuning all is
  as if the machine was made for the program. -/
theorem loading_is_all_or_nothing (memory : Memory) (m : Machine) (program : Array UInt8)
    (parts : Parts) :
    (∀ f, memory.install program = .error f ↔
      3584 < program.size ∧ f = .programTooLarge program.size 3584) ∧
    (program.size ≤ 3584 → ∃ after, memory.install program = .ok after ∧
      (∀ i (h : i < program.size), after.read (UInt16.ofNat (0x200 + i)) = program[i]) ∧
      ∀ a : UInt16, a.toNat % 4096 < 0x200 ∨ 0x200 + program.size ≤ a.toNat % 4096 →
        after.read a = memory.read a) ∧
    (∀ a : UInt16, 80 ≤ a.toNat % 4096 → memory.installFont.read a = memory.read a) ∧
    memory.installFont.install program = (memory.install program).map Memory.installFont ∧
    m.act .installFont = { m with memory := m.memory.installFont } ∧
    (∀ after, m.memory.install program = .ok after →
      (∃ events, m.install program = .ok ⟨{ m with memory := after }, events⟩) ∧
        m.act (.install program) = { m with memory := after }) ∧
    (∀ f, m.memory.install program = .error f →
      m.install program = .error f ∧ m.act (.install program) = m) ∧
    (m.act .installFont).act (.install program) = (m.act (.install program)).act .installFont ∧
    (parts.assemble.2 = .error .missingSurroundings ↔ parts.surroundings = none) ∧
    (parts.assemble.2 = .error .missingProgram ↔
      parts.surroundings.isSome = true ∧ parts.program = none) ∧
    (∀ f, parts.assemble.2 = .error (.load f) ↔ parts.surroundings.isSome = true ∧
      ∃ p, parts.program = some p ∧ Memory.zero.install p = .error f) ∧
    (∀ n, parts.assemble.2 = .ok n ↔ ∃ dice p, parts.surroundings = some dice ∧
      parts.program = some p ∧ p.size ≤ 3584 ∧
      n = ((blank parts.tuning dice).act .installFont).act (.install p)) ∧
    ∀ dice p, (Parts.mk (some dice) (some p) .standard).assemble.2 =
      ((ofProgram dice p).map (·.machine)).mapError .load := by
  refine ⟨fun f => memory.install_eq_error_iff, fun fits => ?_,
    fun a => memory.read_installFont_of_outside, memory.install_installFont, rfl,
    fun after ok => ?_, fun f refused => ?_, m.act_install_installFont,
    Parts.assemble_eq_missingSurroundings_iff, Parts.assemble_eq_missingProgram_iff,
    fun f => Parts.assemble_eq_load_iff, fun n => Parts.assemble_eq_ok_iff,
    Parts.assemble_standard⟩
  · have room : Memory.programStart.toNat + program.size ≤ 4096 :=
      Nat.add_le_of_le_sub' (by decide) fits
    exact ⟨_, memory.install_of_le fits, fun i h => memory.read_overlay_of_lt h room,
      fun a outside => memory.read_overlay_of_outside outside⟩
  · simp only [act, install, ok, and_true]
    exact ⟨_, rfl⟩
  · simp only [act, install, refused, and_self]

end Machine

end Chip8
