import Chip8.Proofs.Machine.Saving
import Chip8.Proofs.Past

/-!
# The ring of memory

Addresses that differ by a multiple of 4096 name the same cell.  Whatever reads and writes memory
agrees on this, so a cell holds what was written into it last under any of its addresses
(`Memory.accessors_agree`).  A word and the bytes of an instruction run on from the last cell to the
first; only a slice stops there.

* `Memory.read_writeAll` : what is read after any number of bytes were written.
* `Memory.readWord_congr` : a word is the same at all addresses of its cell.
* `Memory.between?_slice` : the bounds of a slice lie in order and in memory.
* `Memory.toList_slice` : the bytes of a slice.
* `Machine.reachesAround` : instructions run on around the ring.
-/

namespace Chip8

namespace Memory

/-- Memory after bytes were written to addresses, one after the other. -/
def writeAll (m : Memory) (writes : List (UInt16 × UInt8)) : Memory :=
  writes.foldl (fun m w => m.write w.1 w.2) m

/-- The byte that was written last to an address of the same cell, if there is one. -/
def lastWritten? (writes : List (UInt16 × UInt8)) (a : UInt16) : Option UInt8 :=
  (writes.filterMap fun w =>
    if w.1.toNat % 4096 = a.toNat % 4096 then some w.2 else none).getLast?

/-- The bytes between two bounds, which have to lie in order and in memory. -/
def between? (m : Memory) (first stop : Nat) : Option (Array UInt8) :=
  if first ≤ stop ∧ stop ≤ 4096 then some (m.cells.toArray.extract first stop) else none

/-- Where a slice of `len` bytes stops: at the sum of its start and its length, which goes no
further than 64 bits can count, or at the end of memory if that comes first. -/
def sliceStop (a : UInt16) (len : UInt64) : Nat :=
  min (min (a.toNat % 4096 + len.toNat) (UInt64.size - 1)) 4096

variable (m : Memory) {a b : UInt16} {len : Nat}

/-! ### Bytes -/

/-- **A cell holds what was written into it last.** -/
theorem read_writeAll (writes : List (UInt16 × UInt8)) :
    (m.writeAll writes).read a = (lastWritten? writes a).getD (m.read a) := by
  induction writes using List.reverseRecOn with
  | nil => rfl
  | append_singleton writes w ih =>
    have last : m.writeAll (writes ++ [w]) = (m.writeAll writes).write w.1 w.2 := by
      rw [writeAll, List.foldl_append]
      rfl
    rw [last, read_write, lastWritten?, Past.getLast?_filterMap_concat, ← lastWritten?]
    by_cases same : w.1.toNat % 4096 = a.toNat % 4096
    · rw [if_pos (cell_eq_iff.2 same), if_pos same]
      rfl
    · rw [if_neg fun cells => same (cell_eq_iff.1 cells), if_neg same]
      exact ih

/-! ### Words -/

/-- A word is the same at all addresses of its cell. -/
theorem readWord_congr (h : a.toNat % 4096 = b.toNat % 4096) : m.readWord a = m.readWord b := by
  have next : (a + 1).toNat % 4096 = (b + 1).toNat % 4096 := by
    rw [UInt16.toNat_add, UInt16.toNat_add, show (1 : UInt16).toNat = 1 from rfl]
    omega
  rw [readWord, readWord, m.read_congr h, m.read_congr next]

theorem toNat_readWord_eq (a : UInt16) :
    (m.readWord a).toNat = 256 * (m.read a).toNat + (m.read (a + 1)).toNat := by
  rw [toNat_readWord, read_wrap]

/-! ### Slices -/

/-- **The bounds of a slice lie in order and in memory**, however many bytes are asked for. -/
theorem between?_slice (a : UInt16) (len : UInt64) :
    m.between? (a.toNat % 4096) (sliceStop a len) = some (m.slice a len.toNat) := by
  have size : UInt64.size = 18446744073709551616 := rfl
  have stop : sliceStop a len = min (a.toNat % 4096 + len.toNat) 4096 := by
    rw [sliceStop]
    omega
  have ordered : a.toNat % 4096 ≤ sliceStop a len ∧ sliceStop a len ≤ 4096 := by
    omega
  rw [between?, if_pos ordered, Option.some.injEq, stop]
  refine Array.ext ?_ fun k _ _ => ?_
  · simp only [slice, Array.size_extract, Vector.size_toArray, Nat.min_assoc, Nat.min_self]
    rfl
  · simp only [slice, Array.getElem_extract]
    rfl

theorem size_slice (a : UInt16) (len : Nat) :
    (m.slice a len).size = min len (4096 - a.toNat % 4096) := by
  have place : (cell a).val = a.toNat % 4096 := rfl
  rw [slice, Array.size_extract, Vector.size_toArray, place]
  omega

/-- **The bytes of a slice** are those at the addresses from its start on. -/
theorem toList_slice (a : UInt16) (len : Nat) :
    (m.slice a len).toList =
      (List.range (min len (4096 - a.toNat % 4096))).map fun k => m.read (a + UInt16.ofNat k) := by
  refine List.ext_getElem ?_ fun k inside _ => ?_
  · rw [Array.length_toList, size_slice, List.length_map, List.length_range]
  · rw [Array.length_toList, size_slice] at inside
    have place : (cell (a + UInt16.ofNat k)).val = (cell a).val + k := by
      show (a + UInt16.ofNat k).toNat % 4096 = a.toNat % 4096 + k
      rw [UInt16.toNat_add, UInt16.toNat_ofNat']
      omega
    simp [slice, read, place]

end Memory

/-! ### Instructions -/

namespace Machine

/-- What instructions reach of memory lies around the ring, from the program counter or the index
on. -/
structure ReachesAround (m : Machine) : Prop where
  /-- The word that is fetched. -/
  word : m.nextWord.toNat = 256 * (m.memory.read m.pc).toNat +
    (m.memory.read (UInt16.ofNat ((m.pc.toNat + 1) % 4096))).toNat
  /-- The rows of a sprite. -/
  sprite : ∀ n, m.sprite n = (List.range n.toNat).map fun r =>
    m.memory.read (UInt16.ofNat ((m.index.toNat + r) % 4096))
  /-- The registers that are loaded. -/
  loaded : ∀ x, ∀ k ≤ x,
    (m.restore x).reg k = m.memory.read (UInt16.ofNat ((m.index.toNat + k.val) % 4096))
  /-- The bytes that are stored. -/
  stored : ∀ op, ∀ k < op.stores, (m.act (.execute op)).memory.read
    (UInt16.ofNat ((m.index.toNat + k) % 4096)) = m.byteStored op k
  /-- The cells in which nothing is stored. -/
  others : ∀ op a, (∀ k < op.stores, a.toNat % 4096 ≠ (m.index.toNat + k) % 4096) →
    (m.act (.execute op)).memory.read a = m.memory.read a

theorem reachesAround (m : Machine) : m.ReachesAround where
  word := by
    rw [nextWord, Memory.toNat_readWord_eq]
    exact congrArg (fun byte : UInt8 => _ + byte.toNat) (m.memory.read_add m.pc 1)
  sprite := m.sprite_eq_map_spriteRow
  loaded x k below := by rw [reg_restore, if_pos below]
  stored op := (m.confined_act op).cells
  others op := (m.confined_act op).others

end Machine

/-! ### All of them -/

namespace Memory

/-- **All accessors agree on a ring of 4096 cells.**  Let bytes be written to any addresses of a
memory, one after the other.

* At every address the byte is read that was written last to an address of the same cell, or the
  first content of the cell if there is none.
* A word is the byte at its address, first, and the byte at the next address, and depends only on
  the cell of its address: the word in the last cell ends with the byte in the first one, whatever
  the address.
* A slice never fails, as its bounds lie in order and in memory.  It has as many bytes as were asked
  for, or as there are cells from its start to the end of memory if these are fewer, and its bytes
  are those at the addresses from its start on.
* Whatever instructions read or store runs on from the last cell to the first. -/
theorem accessors_agree (start : Memory) (writes : List (UInt16 × UInt8)) :
    let m := start.writeAll writes
    (∀ a, m.read a = (lastWritten? writes a).getD (start.read a)) ∧
    (∀ a, (m.readWord a).toNat = 256 * (m.read a).toNat + (m.read (a + 1)).toNat ∧
      (a + 1).toNat = (a.toNat + 1) % 65536 ∧
      m.readWord a = m.readWord (UInt16.ofNat (a.toNat % 4096))) ∧
    (m.readWord 0xFFFF).toNat = 256 * (m.read 0xFFF).toNat + (m.read 0).toNat ∧
    m.readWord 0xFFF = m.readWord 0xFFFF ∧
    (∀ a (len : UInt64),
      m.between? (a.toNat % 4096) (sliceStop a len) = some (m.slice a len.toNat) ∧
      (m.slice a len.toNat).size = min len.toNat (4096 - a.toNat % 4096) ∧
      (m.slice a len.toNat).toList = (List.range (m.slice a len.toNat).size).map fun k =>
        m.read (a + UInt16.ofNat k)) ∧
    ∀ machine : Machine, machine.ReachesAround := by
  intro m
  refine ⟨fun _ => start.read_writeAll writes, fun a => ⟨m.toNat_readWord_eq a, a.toNat_add 1, ?_⟩,
    ?_, m.readWord_congr (by decide), fun a len => ⟨m.between?_slice a len, m.size_slice a _, ?_⟩,
    Machine.reachesAround⟩
  · have small : a.toNat % 4096 % 65536 % 4096 = a.toNat % 4096 := by omega
    refine m.readWord_congr ?_
    rw [UInt16.toNat_ofNat']
    exact small.symm
  · have last : m.read 0xFFFF = m.read 0xFFF := m.read_congr (by decide)
    rw [toNat_readWord_eq, last]
    rfl
  · rw [size_slice]
    exact m.toList_slice a _

end Memory

end Chip8
