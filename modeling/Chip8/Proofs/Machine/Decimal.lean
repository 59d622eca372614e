import Chip8.Proofs.Machine.Saving
import Chip8.Proofs.Memory.Installing

/-!
# Showing a number

To show a number, a program stores its decimal digits in memory, loads them into the first three
registers, and points the index at the glyph of each of them
(`Machine.decimal_round_trip`).

* `Machine.toNat_digit`, `Machine.digits_eq_iff` : the digits that are stored, and that they
  determine the number.
* `Machine.reg_restore_spell` : where they are found once they were loaded.
* `Machine.sprite_pointAtGlyph` : the rows that lie at the index then, if the font lies in its
  place.
-/

namespace Chip8

namespace Machine

/-- The machine after the decimal digits of a register were stored. -/
def spell (m : Machine) (x : Register) : Machine := m.act (.execute (.storeDecimal x))

/-- The digits of a register as they lie in memory then, hundreds first. -/
def digit (m : Machine) (x : Register) (k : ℕ) : UInt8 :=
  (m.spell x).memory.read (UInt16.ofNat ((m.index.toNat + k) % 4096))

variable (m : Machine) {n : Machine} {x y : Register} {k : ℕ}

/-! ### Digits -/

theorem toNat_digit (x : Register) (h : k < 3) :
    (m.digit x k).toNat = (m.reg x).toNat / 10 ^ (2 - k) % 10 := by
  have stored := (m.confined_act (.storeDecimal x)).cells k h
  have small : (m.reg x).toNat / 10 ^ (2 - k) % 10 < 10 := Nat.mod_lt _ (by decide)
  rw [digit, spell, stored, byteStored, UInt8.toNat_ofNat']
  omega

theorem digit_le (x : Register) (h : k < 3) : m.digit x k ≤ 9 := by
  have small : (m.reg x).toNat / 10 ^ (2 - k) % 10 < 10 := Nat.mod_lt _ (by decide)
  rw [UInt8.le_iff_toNat_le, m.toNat_digit x h]
  exact Nat.le_of_lt_succ small

theorem value_digits (m : Machine) (x : Register) :
    100 * (m.digit x 0).toNat + 10 * (m.digit x 1).toNat + (m.digit x 2).toNat =
      (m.reg x).toNat := by
  have bound := (m.reg x).toNat_lt
  rw [m.toNat_digit x (by decide), m.toNat_digit x (by decide), m.toNat_digit x (by decide)]
  omega

/-- **The digits of a register determine it**, and it determines them. -/
theorem digits_eq_iff : (∀ k < 3, n.digit y k = m.digit x k) ↔ n.reg y = m.reg x := by
  constructor
  · intro same
    rw [← UInt8.toNat_inj, ← value_digits, ← value_digits, same 0 (by decide), same 1 (by decide),
      same 2 (by decide)]
  · intro same k less
    rw [← UInt8.toNat_inj, toNat_digit _ _ less, toNat_digit _ _ less, same]

theorem reg_restore_spell (m : Machine) (x : Register) {k : Register} (h : k ≤ 2) :
    ((m.spell x).restore 2).reg k = m.digit x k.val := by
  rw [reg_restore, if_pos h]
  rfl

/-! ### Glyphs -/

theorem index_pointAtGlyph (m : Machine) (x : Register) :
    (m.act (.execute (.pointAtGlyph x))).index.toNat = 5 * (m.reg x).toNat := by
  have bound := (m.reg x).toNat_lt
  show (Memory.wrap (Memory.fontStart + (m.reg x).toUInt16 * 5)).toNat = _
  have start : Memory.fontStart.toNat = 0 := rfl
  have five : (5 : UInt16).toNat = 5 := rfl
  rw [Memory.toNat_wrap, UInt16.toNat_add, UInt16.toNat_mul, UInt8.toNat_toUInt16, start, five]
  omega

/-- The five rows at the index are those of a glyph, if the index is pointed at one. -/
theorem sprite_pointAtGlyph (font : m.memory.HasFont) (h : (m.reg x).toNat < 16) :
    (m.act (.execute (.pointAtGlyph x))).sprite 5 = Font.glyph (m.reg x).toNat := by
  refine List.map_congr_left fun r hr => ?_
  have row : r < 5 := List.mem_range.1 hr
  have inside : 5 * (m.reg x).toNat + r < Font.glyphs.size := by
    rw [Font.size_glyphs, Font.glyphHeight]
    omega
  have place : (5 * (m.reg x).toNat + r) % 4096 =
      Memory.fontStart.toNat + (5 * (m.reg x).toNat + r) := by
    rw [show Memory.fontStart.toNat = 0 from rfl]
    omega
  rw [Memory.read_add, index_pointAtGlyph, place]
  exact font _ inside

theorem hasFont_spell (m : Machine) (x : Register) (font : m.memory.HasFont)
    (apart : ∀ k < 3, Font.glyphs.size ≤ (m.index.toNat + k) % 4096) :
    (m.spell x).memory.HasFont := by
  show (decimalAt m.memory m.index (m.reg x)).HasFont
  rw [decimalAt_eq]
  exact font.store apart

/-! ### From the register to the glyphs -/

/-- **A number is stored by its digits, and its digits are shown.**  Storing the decimal digits of a
register, loading them into the first three registers and pointing the index at a glyph never fail.

* The three digits lie in the cells from the index on, which run around the end of memory.  They are
  at most nine, their value is that of the register, and so they determine it.  Nothing else
  changes.
* They are found in the first three registers after they were loaded.
* Wherever one of these registers still holds its digit, the index is pointed at its glyph: there
  the font has five bytes for each digit.  The bytes that are read are the rows of the glyph if the
  font lies in its place, as it does if it was put there and no digit was stored in its cells. -/
theorem decimal_round_trip (m : Machine) (x : Register) :
    let loaded := (m.spell x).restore 2
    m.execute (.storeDecimal x) = .ok ⟨m.spell x, []⟩ ∧
    (m.spell x).execute (.loadRegisters 2) = .ok ⟨loaded, []⟩ ∧
    m.spell x = { m with memory := (m.spell x).memory } ∧
    (∀ a : UInt16, (∀ k < 3, a.toNat % 4096 ≠ (m.index.toNat + k) % 4096) →
      (m.spell x).memory.read a = m.memory.read a) ∧
    (∀ k < 3, m.digit x k ≤ 9) ∧
    100 * (m.digit x 0).toNat + 10 * (m.digit x 1).toNat + (m.digit x 2).toNat =
      (m.reg x).toNat ∧
    (∀ (n : Machine) (y : Register),
      (∀ k < 3, n.digit y k = m.digit x k) ↔ n.reg y = m.reg x) ∧
    (∀ k ≤ (2 : Register), loaded.reg k = m.digit x k.val) ∧
    (∀ k ≤ (2 : Register), ∀ n : Machine, n.reg k = loaded.reg k →
      let pointed := n.act (.execute (.pointAtGlyph k))
      n.execute (.pointAtGlyph k) = .ok ⟨pointed, []⟩ ∧
        pointed.index.toNat = 5 * (m.digit x k.val).toNat ∧
        (n.memory.HasFont → pointed.sprite 5 = Font.glyph (m.digit x k.val).toNat)) ∧
    (∀ memory : Memory, memory.installFont.HasFont) ∧
    (m.memory.HasFont → (∀ k < 3, 80 ≤ (m.index.toNat + k) % 4096) → loaded.memory.HasFont) := by
  intro loaded
  have found (k : Register) (h : k ≤ 2) : loaded.reg k = m.digit x k.val :=
    m.reg_restore_spell x h
  refine ⟨rfl, rfl, rfl, (m.confined_act (.storeDecimal x)).others, fun k less => m.digit_le x less,
    m.value_digits x, fun n y => m.digits_eq_iff, found, ?_, Memory.hasFont_installFont,
    m.hasFont_spell x⟩
  intro k h n holds pointed
  rw [found k h] at holds
  have small : (n.reg k).toNat < 16 := by
    have digit := UInt8.le_iff_toNat_le.1 (m.digit_le x (Nat.lt_succ_of_le h))
    rw [holds]
    exact Nat.lt_of_le_of_lt digit (by decide)
  refine ⟨rfl, ?_, fun font => ?_⟩
  · rw [index_pointAtGlyph, holds]
  · rw [sprite_pointAtGlyph n font small, holds]

end Machine

end Chip8
