import Chip8.Proofs.Machine.Footprint

/-!
# Saving and restoring registers

A program saves its first registers by storing them from the index on, and restores them by loading
them again; their cells run around the end of memory.  Both instructions leave behind registers that
lie in memory, and neither of them changes anything where they do already.  So they undo each other
(`Machine.registers_round_trip`).

* `Machine.Mirrors` : the first registers lie in memory.
* `Machine.mirrors_save`, `Machine.mirrors_restore` : they do once they were stored or loaded.
* `Machine.save_of_mirrors`, `Machine.restore_of_mirrors` : storing or loading them then changes
  nothing.
* `Machine.restore_setRegisters` : what is loaded does not depend on the registers that it replaces.
-/

namespace Chip8

namespace Machine

/-- The machine after the registers up to and including `x` were stored. -/
def save (m : Machine) (x : Register) : Machine := m.act (.execute (.storeRegisters x))

/-- The machine after the registers up to and including `x` were loaded. -/
def restore (m : Machine) (x : Register) : Machine := m.act (.execute (.loadRegisters x))

/-- The registers up to and including `x` lie in memory, in the cells from the index on. -/
def Mirrors (m : Machine) (x : Register) : Prop :=
  ∀ k ≤ x, m.memory.read (UInt16.ofNat ((m.index.toNat + k.val) % 4096)) = m.reg k

variable (m : Machine) {x k : Register}

/-! ### What is stored and what is loaded -/

theorem read_save (h : k ≤ x) :
    (m.save x).memory.read (UInt16.ofNat ((m.index.toNat + k.val) % 4096)) = m.reg k := by
  have stored := (m.confined_act (.storeRegisters x)).cells k.val (Nat.lt_succ_of_le h)
  rwa [byteStored, Fin.ofNat_val_eq_self] at stored

theorem read_save_of_outside {a : UInt16}
    (outside : ∀ k ≤ x, a.toNat % 4096 ≠ (m.index.toNat + k.val) % 4096) :
    (m.save x).memory.read a = m.memory.read a := by
  refine (m.confined_act (.storeRegisters x)).others a fun k less => ?_
  have bound : k < 16 := Nat.lt_of_lt_of_le less x.isLt
  exact outside ⟨k, bound⟩ (Nat.le_of_lt_succ less)

theorem restore_eq (m : Machine) (x : Register) :
    m.restore x = { m with v := m.registersLoaded x } := rfl

theorem reg_restore (m : Machine) (x k : Register) :
    (m.restore x).reg k =
      if k ≤ x then m.memory.read (UInt16.ofNat ((m.index.toNat + k.val) % 4096))
      else m.reg k := by
  rw [← Memory.read_add]
  exact Vector.getElem_ofFn _

/-- A machine's registers are determined by what can be read from them. -/
theorem ext_reg {v : Vector UInt8 16} (h : ∀ k, { m with v := v }.reg k = m.reg k) : v = m.v :=
  Vector.ext fun k less => h ⟨k, less⟩

/-! ### Registers that lie in memory -/

theorem mirrors_save (m : Machine) (x : Register) : Mirrors (m.save x) x :=
  fun _ below => m.read_save below

theorem mirrors_restore (m : Machine) (x : Register) : Mirrors (m.restore x) x := by
  intro k below
  rw [reg_restore, if_pos below]
  simp only [restore_eq]

variable {m}

theorem save_of_mirrors (h : Mirrors m x) : m.save x = m := by
  have same : m.registersStored x = m.memory := by
    rw [registersStored_eq]
    refine m.memory.store_eq_self fun k less => ?_
    have bound : k < 16 := Nat.lt_of_lt_of_le less x.isLt
    have register : Fin.ofNat 16 k = ⟨k, bound⟩ := Fin.ext (Nat.mod_eq_of_lt bound)
    rw [Memory.read_add, register]
    exact h ⟨k, bound⟩ (Nat.le_of_lt_succ less)
  exact congrArg (fun memory => { m with memory := memory }) same

theorem restore_of_mirrors (h : Mirrors m x) : m.restore x = m := by
  have same : m.registersLoaded x = m.v := m.ext_reg fun k => by
    show (m.restore x).reg k = m.reg k
    rw [reg_restore]
    split
    · rename_i below
      exact h k below
    · rfl
  exact congrArg (fun v => { m with v := v }) same

/-- What is loaded replaces the registers up to and including `x`, whatever they held. -/
theorem restore_setRegisters {v : Vector UInt8 16}
    (h : ∀ k, x < k → { m with v := v }.reg k = m.reg k) :
    { m with v := v }.restore x = m.restore x := by
  have same : { m with v := v }.registersLoaded x = (m.restore x).v := ext_reg _ fun k => by
    show ({ m with v := v }.restore x).reg k = (m.restore x).reg k
    rw [reg_restore, reg_restore]
    split
    · rfl
    · rename_i above
      exact h k (not_le.1 above)
  exact congrArg (fun v => { m with v := v }) same

/-! ### There and back -/

/-- **Saved registers are restored, and restored registers need not be saved.**  Storing the
registers up to and including `x` and loading them never fail.

* Stored registers lie in the cells from the index on, which run around the end of memory, and
  nothing else changes.
* Whatever the registers hold when they are loaded again, those up to and including `x` become what
  they were when they were stored, and the others are kept.  If only those were changed in between,
  all is as it was after storing.
* Storing what was just loaded changes nothing, and so does storing a second time. -/
theorem registers_round_trip (m : Machine) (x : Register) :
    (∀ n : Machine, n.execute (.storeRegisters x) = .ok ⟨n.save x, []⟩ ∧
      n.execute (.loadRegisters x) = .ok ⟨n.restore x, []⟩) ∧
    m.save x = { m with memory := (m.save x).memory } ∧
    (∀ k ≤ x, (m.save x).memory.read (UInt16.ofNat ((m.index.toNat + k.val) % 4096)) = m.reg k) ∧
    (∀ a : UInt16, (∀ k ≤ x, a.toNat % 4096 ≠ (m.index.toNat + k.val) % 4096) →
      (m.save x).memory.read a = m.memory.read a) ∧
    (∀ v : Vector UInt8 16,
      let changed := { m.save x with v := v }
      changed.restore x = { changed with v := (changed.restore x).v } ∧
        (∀ k ≤ x, (changed.restore x).reg k = m.reg k) ∧
        (∀ k, x < k → (changed.restore x).reg k = changed.reg k) ∧
        ((∀ k, x < k → changed.reg k = m.reg k) → changed.restore x = m.save x)) ∧
    ((m.restore x).save x).memory = m.memory ∧
    (m.save x).save x = m.save x := by
  refine ⟨fun n => ⟨rfl, rfl⟩, rfl, fun k below => m.read_save below,
    fun a outside => m.read_save_of_outside outside, fun v => ⟨rfl, ?_, ?_, ?_⟩, ?_,
    save_of_mirrors (m.mirrors_save x)⟩
  · intro k below
    rw [reg_restore, if_pos below]
    exact m.read_save below
  · intro k above
    rw [reg_restore, if_neg (not_le.2 above)]
  · intro kept
    have replaced : { m.save x with v := v }.restore x = (m.save x).restore x :=
      restore_setRegisters kept
    exact replaced.trans (restore_of_mirrors (m.mirrors_save x))
  · rw [save_of_mirrors (m.mirrors_restore x)]
    simp only [restore_eq]

end Machine

end Chip8
