import Chip8.Proofs.Memory.Words

/-!
# Storing several bytes

Bytes that are stored one after the other come to lie in neighbouring cells, the first cell of
memory being the neighbour of the last.  As long as there are no more of them than cells, none lies
on another one.

* `Memory.cell_add_inj` : that many addresses in a row name different cells.
* `Memory.read_store`, `Memory.read_store_of_outside` : what is stored is read back, and every other
  cell is as before.
* `Memory.store_eq_self` : storing what lies in the cells already changes nothing.
-/

namespace Chip8

namespace Memory

/-- Memory with bytes in the first `n` cells from an address on. -/
def store (m : Memory) (a : UInt16) (byte : Nat → UInt8) : Nat → Memory
  | 0 => m
  | n + 1 => (m.store a byte n).write (a + UInt16.ofNat n) (byte n)

variable (m : Memory) {a b : UInt16} {byte : Nat → UInt8} {n k l : Nat}

/-- The cell `k` behind an address is found around the ring. -/
theorem cell_eq_add_iff : cell b = cell (a + UInt16.ofNat k) ↔
    b.toNat % 4096 = (a.toNat + k) % 4096 := by
  rw [cell_eq_iff, UInt16.toNat_add, UInt16.toNat_ofNat']
  omega

theorem cell_add_inj (hk : k < 4096) (hl : l < 4096) :
    cell (a + UInt16.ofNat k) = cell (a + UInt16.ofNat l) ↔ k = l := by
  rw [cell_eq_add_iff, UInt16.toNat_add, UInt16.toNat_ofNat']
  omega

theorem read_store_of_outside (outside : ∀ k < n, b.toNat % 4096 ≠ (a.toNat + k) % 4096) :
    (m.store a byte n).read b = m.read b := by
  induction n with
  | zero => rfl
  | succ n ih =>
    have other : cell (a + UInt16.ofNat n) ≠ cell b := fun same =>
      outside n (Nat.lt_succ_self n) (cell_eq_add_iff.1 same.symm)
    rw [store, read_write, if_neg other]
    exact ih fun k less => outside k (Nat.lt_succ_of_lt less)

theorem read_store (fits : n ≤ 4096) (less : k < n) :
    (m.store a byte n).read (a + UInt16.ofNat k) = byte k := by
  induction n with
  | zero => cases less
  | succ n ih =>
    rw [store, read_write]
    by_cases last : n = k
    · rw [last, if_pos rfl]
    · -- The last byte lies in another cell, as there are no more bytes than cells.
      have below : k < n := by omega
      rw [if_neg fun same => last ((cell_add_inj (by omega) (by omega)).1 same)]
      exact ih (Nat.le_of_succ_le fits) below

theorem write_eq_self {v : UInt8} (h : m.read a = v) : m.write a v = m := by
  rw [← h]
  exact congrArg Memory.mk (Vector.set_getElem_self (cell a).isLt)

theorem store_eq_self (h : ∀ k < n, m.read (a + UInt16.ofNat k) = byte k) :
    m.store a byte n = m := by
  induction n with
  | zero => rfl
  | succ n ih =>
    rw [store, ih fun k less => h k (Nat.lt_succ_of_lt less)]
    exact m.write_eq_self (h n (Nat.lt_succ_self n))

end Memory

end Chip8
