import Chip8.Proofs.Instruction.Words
import Chip8.Proofs.Memory.Words

/-!
# Programs as lists of instructions

The image of a list of instructions is the bytes of their words, one after the other, each with its
high byte first.  Words and instructions undo each other, and a list whose image is put into memory
is found there again, instruction by instruction (`Instruction.words_round_trip`).
-/

namespace Chip8

namespace Instruction

/-- The bytes of a word, the high one first. -/
def bytesOf (w : UInt16) : List UInt8 := [(w / 0x100).toUInt8, w.toUInt8]

/-- The bytes of a list of instructions. -/
def image (ops : List Instruction) : Array UInt8 :=
  (ops.flatMap fun op => bytesOf op.encode).toArray

variable {ops : List Instruction}

theorem size_image (ops : List Instruction) : (image ops).size = 2 * ops.length := by
  simp [image, bytesOf, List.length_flatMap, List.map_const', Nat.mul_comm]

/-- The bytes of an instruction lie where those of the instructions before it end. -/
theorem getElem?_image {k : Nat} (h : k < ops.length) :
    (image ops)[2 * k]? = some (ops[k].encode / 0x100).toUInt8 ∧
      (image ops)[2 * k + 1]? = some ops[k].encode.toUInt8 := by
  simp only [image, List.getElem?_toArray]
  induction ops generalizing k with
  | nil => cases h
  | cons op ops ih =>
    cases k with
    | zero => exact ⟨rfl, rfl⟩
    | succ k => exact ih (Nat.lt_of_succ_lt_succ h)

/-- A word is read where its bytes were laid. -/
theorem readWord_of_bytes {memory : Memory} {a w : UInt16}
    (high : memory.read a = (w / 0x100).toUInt8) (low : memory.read (a + 1) = w.toUInt8) :
    memory.readWord a = w := by
  have hw := w.toNat_lt
  apply UInt16.toNat_inj.1
  rw [Memory.toNat_readWord, Memory.read_wrap, high, low]
  simp
  omega

/-- Each instruction of an image is found in memory, two cells after the one before it. -/
theorem readWord_install (small : ops.length ≤ 1792) (memory : Memory) {k : Nat}
    (h : k < ops.length) :
    (memory.overlay Memory.programStart.toNat (image ops)).readWord
      (UInt16.ofNat (0x200 + 2 * k)) = ops[k].encode := by
  obtain ⟨high, low⟩ := getElem?_image h
  obtain ⟨inHigh, high⟩ := Array.getElem?_eq_some_iff.1 high
  obtain ⟨inLow, low⟩ := Array.getElem?_eq_some_iff.1 low
  have fits : Memory.programStart.toNat + (image ops).size ≤ 4096 := by
    rw [size_image]
    show 0x200 + 2 * ops.length ≤ 4096
    omega
  have next : UInt16.ofNat (0x200 + 2 * k) + 1 = UInt16.ofNat (0x200 + (2 * k + 1)) :=
    (UInt16.ofNat_add (0x200 + 2 * k) 1).symm
  apply readWord_of_bytes
  · rw [← high]
    exact Memory.read_overlay_of_lt memory inHigh fits
  · rw [← low, next]
    exact Memory.read_overlay_of_lt memory inLow fits

/-- **Words and programs are read back.**  An instruction whose operands fit its pattern is written
as the word that the pattern spells, and is what this word is read as.  A word that is read as an
instruction is what that instruction, which fits, is written as; a word that cannot be read is
handed back, and no instruction that fits is written as it.  The image of at most 1792 such
instructions can be put into memory, and then the word two cells further for each instruction is
read as the next one. -/
theorem words_round_trip :
    (∀ op : Instruction, op.Fits → op.encode.toNat = op.spelled ∧ decode op.encode = some op) ∧
    (∀ w op, decode w = some op → op.Fits ∧ op.encode = w) ∧
    (∀ w, decode w = none → ofWord w = .error w ∧ ∀ op : Instruction, op.Fits → op.encode ≠ w) ∧
    ∀ ops : List Instruction, (∀ op ∈ ops, op.Fits) → ops.length ≤ 1792 → ∀ memory : Memory,
      ∃ loaded, memory.install (image ops) = .ok loaded ∧
        ∀ k (h : k < ops.length),
          decode (loaded.readWord (UInt16.ofNat (0x200 + 2 * k))) = some ops[k] := by
  refine ⟨fun op fits => ⟨toNat_encode fits, decode_encode fits⟩,
    fun w op read => encode_of_decode read,
    fun w none => ⟨ofWord_eq_error_iff.2 ⟨none, rfl⟩, decode_eq_none_iff.1 none⟩, ?_⟩
  intro ops fit small memory
  have size : (image ops).size ≤ Memory.programLimit := by
    rw [size_image]
    show 2 * ops.length ≤ 3584
    omega
  refine ⟨_, memory.install_of_le size, fun k h => ?_⟩
  rw [readWord_install small memory h]
  exact decode_encode (fit ops[k] (List.getElem_mem h))

/-- As many instructions as memory has room for; the last of them lies in the last two cells. -/
theorem words_round_trip_of_full :
    let ops := List.replicate 1792 (draw 0xF 0xE 0xF)
    (∀ op ∈ ops, op.Fits) ∧ ops.length ≤ 1792 ∧
      ∃ loaded, Memory.zero.install (image ops) = .ok loaded ∧
        decode (loaded.readWord 0xFFE) = some (draw 0xF 0xE 0xF) := by
  intro ops
  have fit : ∀ op ∈ ops, op.Fits := by
    intro op mem
    rw [List.eq_of_mem_replicate mem]
    show (0xF : UInt8) < 0x10
    decide
  have small : ops.length ≤ 1792 := Nat.le_of_eq List.length_replicate
  obtain ⟨-, -, -, programs⟩ := words_round_trip
  obtain ⟨loaded, installed, found⟩ := programs ops fit small .zero
  have last : 1791 < ops.length := by
    rw [List.length_replicate]
    decide
  refine ⟨fit, small, loaded, installed, ?_⟩
  have read := found 1791 last
  rwa [List.getElem_replicate] at read

end Instruction

end Chip8
