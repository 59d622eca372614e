import Chip8.Fault
import Chip8.Memory.Font

/-!
# Memory

A ring of 4096 byte cells.  Every address is a whole word and is reduced to twelve bits before it
is used, so reading and writing never fail; only `Memory.slice` stops at the last cell.  The font
lies at the start, a program from address `0x200` on.

* `Memory.toNat_wrap` : a reduced address is the remainder by the number of cells.
* `Memory.read_write` : a written cell reads back, every other cell is as before.
* `Memory.read_overlay` : what bytes laid over memory leave in each cell.
-/

namespace Chip8

/-- The memory of a machine. -/
structure Memory where
  /-- The byte in each cell. -/
  cells : Vector UInt8 4096
  deriving DecidableEq

namespace Memory

/-- The first address of a program. -/
def programStart : UInt16 := 0x200

/-- The number of bytes that a program may have. -/
def programLimit : Nat := 4096 - programStart.toNat

/-- The first address of the font. -/
def fontStart : UInt16 := 0

/-- An address reduced to twelve bits. -/
def wrap (a : UInt16) : UInt16 := a &&& 0xFFF

/-- The cell that an address names. -/
def cell (a : UInt16) : Fin 4096 := Fin.ofNat 4096 a.toNat

/-- Memory with zero in every cell. -/
def zero : Memory := ⟨Vector.replicate 4096 0⟩

/-- The byte at an address. -/
def read (m : Memory) (a : UInt16) : UInt8 := m.cells[cell a]

/-- Memory with one byte replaced. -/
def write (m : Memory) (a : UInt16) (b : UInt8) : Memory :=
  ⟨m.cells.set (cell a).val b (cell a).isLt⟩

/-- The word at an address, high byte first; its second byte may lie at the start of memory. -/
def readWord (m : Memory) (a : UInt16) : UInt16 :=
  (m.read a).toUInt16 * 0x100 + (m.read (a + 1)).toUInt16

/-- Up to `len` bytes from an address, cut short at the last cell. -/
def slice (m : Memory) (a : UInt16) (len : Nat) : Array UInt8 :=
  m.cells.toArray.extract (cell a).val ((cell a).val + len)

/-- Memory with bytes laid over the cells from `start` on. -/
def overlay (m : Memory) (start : Nat) (bytes : Array UInt8) : Memory :=
  ⟨Vector.ofFn fun k =>
    if start ≤ k.val then bytes.getD (k.val - start) m.cells[k] else m.cells[k]⟩

/-- Memory with the font at its start. -/
def installFont (m : Memory) : Memory :=
  m.overlay fontStart.toNat Font.glyphs

/-- Memory with a program in its place, or the reason why the program does not fit. -/
def install (m : Memory) (program : Array UInt8) : Except Fault Memory :=
  if program.size ≤ programLimit then .ok (m.overlay programStart.toNat program)
  else .error (.programTooLarge program.size programLimit)

/-! ### Addresses -/

theorem toNat_wrap (a : UInt16) : (wrap a).toNat = a.toNat % 4096 := by
  simp only [wrap, UInt16.toNat_and]
  exact Nat.and_two_pow_sub_one_eq_mod a.toNat 12

theorem wrap_le (a : UInt16) : wrap a ≤ 0xFFF := by
  have bound : a.toNat % 4096 < 4096 := Nat.mod_lt _ (by decide)
  rw [UInt16.le_iff_toNat_le, toNat_wrap]
  exact Nat.le_of_lt_succ bound

theorem val_cell (a : UInt16) : (cell a).val = (wrap a).toNat := by
  rw [toNat_wrap]
  rfl

/-! ### Reading after writing -/

theorem read_write (m : Memory) (a b : UInt16) (v : UInt8) :
    (m.write a v).read b = if cell a = cell b then v else m.read b := by
  simp only [read, write, Fin.getElem_fin, Vector.getElem_set, Fin.val_inj]

theorem read_overlay (m : Memory) (start : Nat) (bytes : Array UInt8) (a : UInt16) :
    (m.overlay start bytes).read a =
      if start ≤ (cell a).val then bytes.getD ((cell a).val - start) (m.read a)
      else m.read a := by
  simp [read, overlay]

end Memory

end Chip8
