import Mathlib.Data.Int.Notation
import Chip8.Proofs.Machine.Runs

/-!
# Arithmetic with a flag

Sums, differences and shifts put what fits into a byte into a register, and the flag register says
what was lost: a carry, a borrow, or the bit that was shifted out.  The operands are read before
anything is written and the result is written last, so all is well if registers coincide, and if
one of them is the flag register (`Machine.arithmetic_is_exact`).

* `Machine.Calculates` : an instruction leaves a result and a flag, and else changes nothing.
* `Machine.add_subtract` : adding again what was subtracted restores the register and turns the flag
  around.
-/

namespace Chip8

namespace Machine

/-- The instruction puts `value` into `x` and, unless that is the flag register, into the flag
register whether `flag` holds. -/
structure Calculates (m : Machine) (op : Instruction) (x : Register) (value : ℤ) (flag : Prop) :
    Prop where
  /-- The instruction succeeds, and nothing is seen of it. -/
  ok : m.execute op = .ok ⟨m.act (.execute op), []⟩
  value : ((m.act (.execute op)).reg x).toNat = value
  set : x ≠ flagRegister → flag → (m.act (.execute op)).reg flagRegister = 1
  clear : x ≠ flagRegister → ¬ flag → (m.act (.execute op)).reg flagRegister = 0
  /-- All other registers are as before. -/
  others : ∀ r ≠ x, r ≠ flagRegister → (m.act (.execute op)).reg r = m.reg r
  /-- And so is all but the registers. -/
  rest : m.act (.execute op) = { m with v := (m.act (.execute op)).v }

variable {m : Machine} {op : Instruction} {x y : Register}

theorem calculates_of_setFlagged {result : UInt8} {bit : Bool} {value : ℤ} {flag : Prop}
    (h : m.execute op = (m.setFlagged x result bit).quiet) (same : result.toNat = value)
    (iff : bit = true ↔ flag) : Calculates m op x value flag := by
  have left : m.act (.execute op) = m.setFlagged x result bit := by
    simp only [act, h, quiet]
  constructor
  · rw [left, h, quiet]
  · rw [left, reg_setFlagged, if_pos rfl, same]
  · intro other holds
    rw [left, reg_setFlagged, if_neg other, if_pos rfl, iff.2 holds]
    rfl
  · intro other fails
    rw [left, reg_setFlagged, if_neg other, if_pos rfl, Bool.eq_false_iff.2 (mt iff.1 fails)]
    rfl
  · intro r first second
    rw [left, reg_setFlagged, if_neg first.symm, if_neg second.symm]
  · rw [left]
    rfl

/-! ### Sums and differences -/

theorem calculates_add (m : Machine) (x y : Register) :
    Calculates m (.add x y) x (((m.reg x).toNat + (m.reg y).toNat) % 256)
      (255 < (m.reg x).toNat + (m.reg y).toNat) := by
  refine calculates_of_setFlagged rfl ?_ decide_eq_true_iff
  rw [UInt8.toNat_add]
  rfl

theorem calculates_subtract (m : Machine) (x y : Register) :
    Calculates m (.subtract x y) x (((m.reg x).toNat - (m.reg y).toNat) % 256)
      ((m.reg y).toNat ≤ (m.reg x).toNat) := by
  refine calculates_of_setFlagged rfl ?_ (decide_eq_true_iff.trans UInt8.le_iff_toNat_le)
  have bound := (m.reg y).toNat_lt
  rw [UInt8.toNat_sub]
  omega

theorem calculates_subtractFrom (m : Machine) (x y : Register) :
    Calculates m (.subtractFrom x y) x (((m.reg y).toNat - (m.reg x).toNat) % 256)
      ((m.reg x).toNat ≤ (m.reg y).toNat) := by
  refine calculates_of_setFlagged rfl ?_ (decide_eq_true_iff.trans UInt8.le_iff_toNat_le)
  have bound := (m.reg x).toNat_lt
  rw [UInt8.toNat_sub]
  omega

/-! ### Shifts -/

theorem calculates_shiftRight (m : Machine) (x y : Register) :
    Calculates m (.shiftRight x y) x ((m.reg x).toNat / 2) ((m.reg x).toNat % 2 = 1) := by
  refine calculates_of_setFlagged rfl ?_ ?_
  · rw [UInt8.toNat_shiftRight]
    rfl
  · rw [beq_iff_eq, ← UInt8.toNat_inj, UInt8.toNat_and]
    exact iff_of_eq (congrArg (· = 1) (Nat.and_one_is_mod _))

theorem calculates_shiftLeft (m : Machine) (x y : Register) :
    Calculates m (.shiftLeft x y) x (2 * (m.reg x).toNat % 256) (128 ≤ (m.reg x).toNat) := by
  have bound := (m.reg x).toNat_lt
  refine calculates_of_setFlagged rfl ?_ ?_
  · have double : 2 ^ ((1 : UInt8).toNat % 8) = 2 := rfl
    rw [UInt8.toNat_shiftLeft, Nat.shiftLeft_eq, double]
    omega
  · have highest : 2 ^ ((7 : UInt8).toNat % 8) = 128 := rfl
    have one : (1 : UInt8).toNat = 1 := rfl
    rw [beq_iff_eq, ← UInt8.toNat_inj, UInt8.toNat_shiftRight, Nat.shiftRight_eq_div_pow, highest,
      one]
    omega

/-! ### There and back -/

/-- **Adding again what was subtracted restores the register and turns the flag around.** -/
theorem add_subtract (hx : x ≠ flagRegister) (hy : y ≠ flagRegister) (differ : x ≠ y) :
    let less := m.act (.execute (.subtract x y))
    let back := less.act (.execute (.add x y))
    back.reg x = m.reg x ∧ back.reg flagRegister = 1 - less.reg flagRegister := by
  intro less back
  have there := m.calculates_subtract x y
  have again := less.calculates_add x y
  have same : less.reg y = m.reg y := there.others y differ.symm hy
  have difference : ((less.reg x).toNat : ℤ) = _ := there.value
  have sum : ((back.reg x).toNat : ℤ) = _ := again.value
  rw [same] at sum again
  have a := (m.reg x).toNat_lt
  have b := (m.reg y).toNat_lt
  constructor
  · rw [← UInt8.toNat_inj]
    omega
  · -- What was borrowed is carried.
    have carried : 255 < (less.reg x).toNat + (m.reg y).toNat ↔
        ¬ (m.reg y).toNat ≤ (m.reg x).toNat := by omega
    by_cases enough : (m.reg y).toNat ≤ (m.reg x).toNat
    · rw [there.set hx enough, again.clear hx fun carry => carried.1 carry enough]
      rfl
    · rw [there.clear hx enough, again.set hx (carried.2 enough)]
      rfl

/-- **Arithmetic is exact, and so are its flags**, whichever registers coincide.  Let `a` and `b` be
what two registers hold before the instruction.  The result is their sum, a difference of them, or
the half or the double of `a`, as far as it fits into a byte, and the flag says that there is a
carry, that nothing is borrowed, or that a bit is shifted out.  A sum takes a difference back, and
its flag is set exactly if that of the difference is not. -/
theorem arithmetic_is_exact (m : Machine) (x y : Register) :
    let a := (m.reg x).toNat
    let b := (m.reg y).toNat
    Calculates m (.add x y) x ((a + b) % 256) (255 < a + b) ∧
      Calculates m (.subtract x y) x ((a - b) % 256) (b ≤ a) ∧
      Calculates m (.subtractFrom x y) x ((b - a) % 256) (a ≤ b) ∧
      Calculates m (.shiftRight x y) x (a / 2) (a % 2 = 1) ∧
      Calculates m (.shiftLeft x y) x (2 * a % 256) (128 ≤ a) ∧
      (x ≠ flagRegister → y ≠ flagRegister → x ≠ y →
        let less := m.act (.execute (.subtract x y))
        let back := less.act (.execute (.add x y))
        back.reg x = m.reg x ∧ back.reg flagRegister = 1 - less.reg flagRegister) :=
  ⟨m.calculates_add x y, m.calculates_subtract x y, m.calculates_subtractFrom x y,
    m.calculates_shiftRight x y, m.calculates_shiftLeft x y, add_subtract⟩

end Machine

end Chip8
