import Chip8.Memory

/-!
# Bytes, words and programs in memory

* `Memory.read_wrap` : an address may be reduced before it is used.
* `Memory.wrap_add`, `Memory.read_add` : addresses are added around the ring.
* `Memory.toNat_readWord` : a word is made of two bytes, the second of which may lie at the start of
  memory.
* `Memory.install_of_le`, `Memory.read_overlay_of_lt` : where the bytes of a program come to lie.
-/

namespace Chip8

namespace Memory

/-! ### Addresses -/

theorem cell_eq_iff {a b : UInt16} : cell a = cell b ↔ a.toNat % 4096 = b.toNat % 4096 :=
  Fin.ext_iff

/-- Addresses of one cell read the same byte. -/
theorem read_congr (m : Memory) {a b : UInt16} (h : a.toNat % 4096 = b.toNat % 4096) :
    m.read a = m.read b := by
  simp only [read, cell_eq_iff.2 h]

theorem read_wrap (m : Memory) (a : UInt16) : m.read (wrap a) = m.read a :=
  m.read_congr (by rw [toNat_wrap, Nat.mod_mod])

/-- A sum of two addresses, whose carry is dropped, is their sum around the ring. -/
theorem wrap_add (a b : UInt16) : wrap (a + b) = UInt16.ofNat ((a.toNat + b.toNat) % 4096) := by
  apply UInt16.toNat_inj.1
  rw [toNat_wrap, UInt16.toNat_add, UInt16.toNat_ofNat']
  omega

/-- The byte `k` cells behind an address is found around the ring. -/
theorem read_add (m : Memory) (a : UInt16) (k : Nat) :
    m.read (a + UInt16.ofNat k) = m.read (UInt16.ofNat ((a.toNat + k) % 4096)) := by
  refine m.read_congr ?_
  rw [UInt16.toNat_add, UInt16.toNat_ofNat', UInt16.toNat_ofNat']
  omega

/-! ### Words -/

theorem toNat_readWord (m : Memory) (a : UInt16) :
    (m.readWord a).toNat = 0x100 * (m.read a).toNat + (m.read (wrap (a + 1))).toNat := by
  have high := (m.read a).toNat_lt
  have low := (m.read (a + 1)).toNat_lt
  rw [read_wrap]
  simp only [readWord, UInt16.toNat_add, UInt16.toNat_mul, UInt16.reduceToNat,
    UInt8.toNat_toUInt16]
  omega

/-! ### Programs -/

theorem install_of_le (m : Memory) {program : Array UInt8} (h : program.size ≤ programLimit) :
    m.install program = .ok (m.overlay programStart.toNat program) :=
  if_pos h

/-- A byte that was laid over memory is read at its address. -/
theorem read_overlay_of_lt (m : Memory) {start : Nat} {bytes : Array UInt8} {i : Nat}
    (h : i < bytes.size) (bound : start + bytes.size ≤ 4096) :
    (m.overlay start bytes).read (UInt16.ofNat (start + i)) = bytes[i] := by
  have place : (cell (UInt16.ofNat (start + i))).val = start + i := by
    show (UInt16.ofNat (start + i)).toNat % 4096 = start + i
    rw [UInt16.toNat_ofNat']
    omega
  rw [read_overlay, place, if_pos (Nat.le_add_right start i), Nat.add_sub_cancel_left]
  simp [h]

end Memory

end Chip8
