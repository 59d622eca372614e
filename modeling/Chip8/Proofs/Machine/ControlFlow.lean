import Chip8.Proofs.Machine.Faults
import Chip8.Proofs.Machine.Footprint
import Chip8.Proofs.Machine.KeyWait

/-!
# Where a machine goes on

A machine goes on with the word behind the one that it executed, unless that is a jump, a call, a
return, or a skip whose condition holds.  Addresses are counted around the ring: at the last cells
of memory the word, or the one behind it, lies at the start, and odd addresses are nothing special
(`Machine.control_flow`).

* `Machine.pc_of_ok` : where an instruction that succeeds leads to.
* `Machine.down_run` : the keys that are down are those that were seen last, whatever else was done
  to the machine.
-/

namespace Chip8

/-- The keys that are down when an act looks at the keyboard, if it does. -/
def Act.keys? : Act → Option KeySet
  | .beat b => some b.keys
  | _ => none

namespace Machine

/-- The address that the instruction at the program counter leads to.  Only a return without an open
call leads nowhere. -/
def successor (m : Machine) : Instruction → Option Nat
  | .jump nnn | .call nnn => some nnn.toNat
  | .jumpOffset nnn => some ((nnn.toNat + (m.reg 0).toNat) % 4096)
  | .ret => m.stack.head?.map UInt16.toNat
  | op => some ((m.pc.toNat + if m.skips op then 4 else 2) % 4096)

/-- The keys `seen` are down, the next word is read around the ring, and if it is an instruction
that succeeds then the machine goes on where the instruction leads to. -/
structure Flows (seen : KeySet) (m : Machine) : Prop where
  down : m.keypad.down = seen
  word : m.nextWord.toNat = 256 * (m.memory.read m.pc).toNat +
    (m.memory.read (UInt16.ofNat ((m.pc.toNat + 1) % 4096))).toNat
  onward : ∀ op, m.nextOp = some op → m.executeNext.failure = none →
    m.successor op = some m.executeNext.machine.pc.toNat

variable {m : Machine} {op : Instruction} {e : Effect}

/-! ### The program counter -/

theorem toNat_pc_advance (m : Machine) : m.advance.pc.toNat = (m.pc.toNat + 2) % 4096 := by
  have two : (2 : UInt16).toNat = 2 := rfl
  rw [advance, Memory.toNat_wrap, UInt16.toNat_add]
  omega

theorem skips_advance (m : Machine) (op : Instruction) : m.advance.skips op = m.skips op := by
  cases op <;> rfl

/-- An instruction that neither jumps nor returns leads past itself, and past one more word if it is
a skip whose condition holds. -/
theorem pc_of_straight (straight : op.pattern ∉ ["00EE", "1NNN", "2NNN", "BNNN"])
    (h : m.advance.execute op = .ok e) :
    e.machine.pc.toNat = (m.pc.toNat + if m.skips op then 4 else 2) % 4096 := by
  cases skip : m.skips op with
  | true =>
    rw [execute_of_skips ((m.skips_advance op).trans skip)] at h
    rw [quiet_eq_ok_iff.1 h, toNat_pc_advance, toNat_pc_advance, if_pos rfl]
    omega
  | false =>
    rw [(confined_of_ok h).pc straight ((m.skips_advance op).trans skip), toNat_pc_advance]
    rfl

/-- **Where an instruction that succeeds leads to.** -/
theorem pc_of_ok (fits : op.Fits) (h : m.advance.execute op = .ok e) :
    m.successor op = some e.machine.pc.toNat := by
  -- An address operand has twelve bits already.
  have kept (nnn : UInt16) (small : nnn < 0x1000) : (Memory.wrap nnn).toNat = nnn.toNat := by
    have bound : nnn.toNat < 4096 := UInt16.lt_iff_toNat_lt.1 small
    rw [Memory.toNat_wrap, Nat.mod_eq_of_lt bound]
  -- Apart from the program counter the machine is still the same.
  have stack : m.advance.stack = m.stack := rfl
  have offset : m.advance.reg 0 = m.reg 0 := rfl
  generalize ahead : m.advance = k at h stack offset
  cases op with
  | jump nnn =>
    rw [quiet_eq_ok_iff.1 h]
    exact congrArg some (kept nnn fits).symm
  | call nnn =>
    simp only [execute, pushCall] at h
    split at h
    · rw [quiet_eq_ok_iff.1 h]
      exact congrArg some (kept nnn fits).symm
    · cases h
  | jumpOffset nnn =>
    rw [quiet_eq_ok_iff.1 h]
    refine congrArg some ?_
    rw [Memory.toNat_wrap, UInt16.toNat_add, UInt8.toNat_toUInt16, offset]
    omega
  | ret =>
    simp only [execute, popCall] at h
    split at h
    · cases h
    · rename_i a rest top
      rw [quiet_eq_ok_iff.1 h]
      exact congrArg (fun calls => calls.head?.map UInt16.toNat) (stack.symm.trans top)
  | _ =>
    subst ahead
    exact congrArg some (pc_of_straight (by simp [Instruction.pattern]) h).symm

theorem flows_of_down {seen : KeySet} (down : m.keypad.down = seen) : Flows seen m where
  down := down
  word := by
    have word := m.memory.toNat_readWord m.pc
    rwa [Memory.wrap_add] at word
  onward op next ok := by
    obtain ⟨fits, -⟩ := Instruction.decode_eq_some_iff.1 next
    cases done : m.advance.execute op with
    | ok e =>
      rw [executeNext_of_ok next done]
      exact pc_of_ok fits done
    | error f =>
      rw [executeNext_of_error next done] at ok
      cases ok

/-! ### The keys that are down -/

/-- Only a beat looks at the keyboard. -/
theorem down_act_of_other {a : Act} (other : ∀ b, a ≠ .beat b) :
    (m.act a).keypad.down = m.keypad.down := by
  cases a with
  | beat b => exact (other b rfl).elim
  | execute op => exact (m.confined_act op).fixed.1
  | installFont => rw [act_installFont]
  | install program =>
    obtain ⟨memory, same⟩ := act_install m program
    rw [same]

/-- **The keys that are down are those that were seen last**, as long as the machine is not
halted. -/
theorem down_run (acts : List Act) (alive : (m.run acts).fault = none) :
    (m.run acts).keypad.down = (acts.filterMap Act.keys?).getLastD m.keypad.down := by
  induction acts generalizing m with
  | nil => rfl
  | cons a acts ih =>
    have start := alive_of_run alive
    have step : m.run (a :: acts) = (m.act a).run acts := rfl
    rw [step] at alive ⊢
    rw [ih alive]
    obtain ⟨b, rfl⟩ | other := a.beat_or_other
    · have seen : (m.act (.beat b)).keypad.down = b.keys := down_turn start b
      have looks : (Act.beat b).keys? = some b.keys := rfl
      rw [seen, List.filterMap_cons_some looks, List.getLastD_cons]
    · have looks : a.keys? = none := by
        cases a with
        | beat b => exact (other b rfl).elim
        | _ => rfl
      rw [down_act_of_other other, List.filterMap_cons_none looks]

/-- While a beat fetches instructions the machine runs, and those keys are down that the beat
saw. -/
theorem running_and_down_of_fetched {b : Beat} {k : Machine} (h : k ∈ m.fetched b) :
    k.mode = .running ∧ k.keypad.down = b.keys := by
  unfold fetched at h
  split at h
  · cases h
  · obtain ⟨settled, running⟩ := forall_fetches (fun _ h _ => h.executeNext) (m.quota b)
      (settled_latchKeys m b.keys) k h
    exact ⟨running, settled.down⟩

/-! ### All machines that are built -/

/-- **Where a machine goes on.**  Let `n` be what became of a machine that was built, whatever was
done to it, and let it not be halted.  If the next word of `n` is an instruction that succeeds, then
`n` goes on where the instruction leads to, the keys that are down being those that were seen last.
The same is true wherever a frame or a step of `n` fetches an instruction. -/
theorem control_flow (built : Built m) (acts : List Act) (alive : (m.run acts).fault = none) :
    let n := m.run acts
    Flows ((acts.filterMap Act.keys?).getLastD .empty) n ∧
      ∀ b, ∀ k ∈ n.fetched b, k.mode = .running ∧ Flows b.keys k := by
  intro n
  obtain ⟨tuning, dice, memory, rfl⟩ := blank_of_built built
  refine ⟨flows_of_down (down_run acts alive), fun b k mem => ?_⟩
  obtain ⟨running, down⟩ := running_and_down_of_fetched mem
  exact ⟨running, flows_of_down down⟩

/-- A skip in the last cell of memory, its second byte in the first one, and its condition a key
named by the low half of a byte: it fails, and it holds in a step that sees the key. -/
theorem control_flow_of_last_cell :
    let m := blank .standard (.ofFaces fun _ => 0)
    let acts := [Act.execute (.setByte 0 0xE0), .execute (.setByte 1 0x9E),
      .execute (.setIndex 0xFFF), .execute (.storeRegisters 1), .execute (.jump 0xFFF)]
    let n := m.run acts
    let k := (n.latchKeys (.single 0)).machine
    Built m ∧ n.fault = none ∧
      n.executeNext.machine.pc.toNat = 0x001 ∧
      k ∈ n.fetched (.step (.single 0)) ∧ k.executeNext.machine.pc.toNat = 0x003 := by
  intro m acts n k
  have alive : n.fault = none := by decide +kernel
  have mem : k ∈ n.fetched (.step (.single 0)) :=
    List.mem_of_mem_head? (head_fetched alive le_rfl (by decide +kernel))
  obtain ⟨now, steps⟩ := control_flow (.blank .standard (.ofFaces fun _ => 0)) acts alive
  have fails := now.onward (.skipIfKey 0) (by decide +kernel) (by decide +kernel)
  have holds := (steps _ k mem).2.onward (.skipIfKey 0) (by decide +kernel) (by decide +kernel)
  refine ⟨.blank _ _, alive, Option.some.inj (fails.symm.trans ?_), mem,
    Option.some.inj (holds.symm.trans ?_)⟩
  · decide +kernel
  · decide +kernel

end Machine

end Chip8
