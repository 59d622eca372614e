import Mathlib.Data.List.Basic
import Mathlib.Algebra.BigOperators.Group.List.Basic

/-!
# The bytes of a text

A character below 128 is its own byte, and no byte of any other character is below 128.  So such a
character occurs in a text as often as its byte occurs in what the text is sent as.
-/

namespace Chip8

namespace Ascii

/-- The bytes that a text is sent as. -/
def bytes (text : String) : List UInt8 := text.toUTF8.data.toList

theorem bytes_eq (text : String) : bytes text = text.toList.flatMap String.utf8EncodeChar := by
  have encoded : text.toUTF8 = text.toList.utf8Encode := String.utf8Encode_toList.symm
  rw [bytes, encoded]
  exact List.toList_data_toByteArray

theorem bytes_append (text more : String) : bytes (text ++ more) = bytes text ++ bytes more := by
  simp only [bytes_eq, String.toList_append, List.flatMap_append]

theorem bytes_join (texts : List String) : bytes (String.join texts) = texts.flatMap bytes := by
  induction texts with
  | nil => rfl
  | cons text texts ih => rw [String.join_cons, bytes_append, ih, List.flatMap_cons]

/-- The bytes of a character are its own number, if that is below 128, and else none of them is. -/
theorem utf8EncodeChar_cases (c : Char) :
    (c.toNat < 128 ∧ String.utf8EncodeChar c = [UInt8.ofNat c.toNat]) ∨
      128 ≤ c.toNat ∧ ∀ b ∈ String.utf8EncodeChar c, 128 ≤ b.toNat := by
  have code : c.val.toNat = c.toNat := rfl
  have high (n : Nat) (low : 128 ≤ n) (bound : n < 256) : 128 ≤ (UInt8.ofNat n).toNat := by
    rw [UInt8.toNat_ofNat', Nat.mod_eq_of_lt bound]
    exact low
  simp only [String.utf8EncodeChar, code]
  by_cases one : c.toNat ≤ 127
  · rw [if_pos one]
    exact .inl ⟨Nat.lt_succ_of_le one, rfl⟩
  · rw [if_neg one]
    refine .inr ⟨Nat.lt_of_not_le one, fun b mem => ?_⟩
    split at mem
    · simp only [List.mem_cons, List.not_mem_nil, or_false] at mem
      rcases mem with rfl | rfl <;> exact high _ (by omega) (by omega)
    · split at mem
      · simp only [List.mem_cons, List.not_mem_nil, or_false] at mem
        rcases mem with rfl | rfl | rfl <;> exact high _ (by omega) (by omega)
      · simp only [List.mem_cons, List.not_mem_nil, or_false] at mem
        rcases mem with rfl | rfl | rfl | rfl <;> exact high _ (by omega) (by omega)

theorem count_utf8EncodeChar {b : UInt8} (small : b.toNat < 128) (c : Char) :
    (String.utf8EncodeChar c).count b = if c.toNat = b.toNat then 1 else 0 := by
  obtain ⟨low, own⟩ | ⟨high, others⟩ := utf8EncodeChar_cases c
  · have value : (UInt8.ofNat c.toNat).toNat = c.toNat := by
      rw [UInt8.toNat_ofNat', Nat.mod_eq_of_lt (by omega)]
    have same : UInt8.ofNat c.toNat = b ↔ c.toNat = b.toNat := by rw [← UInt8.toNat_inj, value]
    rw [own, List.count_singleton]
    simp only [beq_iff_eq, same]
  · rw [if_neg (by omega), List.count_eq_zero]
    intro mem
    exact absurd (others b mem) (Nat.not_le.2 small)

/-- **A character below 128 occurs in a text as often as its byte occurs in what is sent.** -/
theorem count_bytes {b : UInt8} (small : b.toNat < 128) (text : String) :
    (bytes text).count b = text.toList.countP fun c => c.toNat = b.toNat := by
  rw [bytes_eq]
  induction text.toList with
  | nil => rfl
  | cons c cs ih =>
    rw [List.flatMap_cons, List.count_append, count_utf8EncodeChar small, ih, List.countP_cons,
      Nat.add_comm]
    simp only [decide_eq_true_eq]

theorem not_mem_bytes {b : UInt8} (small : b.toNat < 128) {text : String}
    (absent : ∀ c ∈ text.toList, c.toNat ≠ b.toNat) : b ∉ bytes text := by
  rw [← List.count_eq_zero, count_bytes small, List.countP_eq_zero]
  intro c mem
  simpa using absent c mem

end Ascii

end Chip8
