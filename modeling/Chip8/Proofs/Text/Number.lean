import Mathlib.Data.List.Basic
import Chip8.Text.Number

/-!
# Numbers that are read back

Digits are read as the number that they are worth, be there zeros or a plus sign before them or not.

* `Number.digits?_eq` : what digits are read as.
* `Number.decimal_toString` : the decimal form of a number.
* `Number.below?_eq` : all texts of a number are read as that number, where it has room.
-/

namespace Chip8

namespace Number

/-- Digits that are worth a number. -/
structure Decimal (n : Nat) (ds : List Char) : Prop where
  ne_nil : ds ≠ []
  digits : ∀ d ∈ ds, d.isDigit = true
  worth : Nat.ofDigitChars 10 ds 0 = n

/-- The texts of a number. -/
inductive Writes (n : Nat) : List Char → Prop where
  /-- Digits alone. -/
  | plain {ds : List Char} (decimal : Decimal n ds) : Writes n ds
  /-- Digits after a plus sign. -/
  | plus {ds : List Char} (decimal : Decimal n ds) : Writes n ('+' :: ds)

variable {n limit : Nat} {c : Char} {cs ds : List Char}

/-! ### Digits -/

theorem digit?_eq (h : c.isDigit = true) : digit? c = some (c.toNat - 48) := by
  have bounds : '0' ≤ c ∧ c ≤ '9' := by simpa [Char.isDigit, Char.le_def] using h
  exact if_pos bounds

theorem continue?_eq (h : ∀ c ∈ cs, c.isDigit = true) (n : Nat) :
    continue? n cs = some (Nat.ofDigitChars 10 cs n) := by
  induction cs generalizing n with
  | nil => rfl
  | cons c cs ih =>
    rw [List.forall_mem_cons] at h
    rw [continue?, digit?_eq h.1, Option.bind_some, ih h.2, Nat.ofDigitChars_cons, Nat.mul_comm]
    rfl

theorem digits?_eq (h : Decimal n ds) : digits? ds = some n := by
  obtain ⟨ne, digits, rfl⟩ := h
  cases ds with
  | nil => exact absurd rfl ne
  | cons d ds => exact continue?_eq digits 0

/-! ### The decimal form -/

theorem toList_toString (n : Nat) : (toString n).toList = Nat.toDigits 10 n := Nat.toList_repr

theorem isDigit_toString (h : c ∈ (toString n).toList) : c.isDigit = true := by
  rw [toList_toString] at h
  exact Nat.isDigit_of_mem_toDigits (by decide) (by decide) h

theorem decimal_toString (n : Nat) : Decimal n (toString n).toList where
  ne_nil := by
    rw [toList_toString]
    exact Nat.toDigits_ne_nil
  digits _ := isDigit_toString
  worth := by rw [toList_toString, Nat.ofDigitChars_toDigits (by decide) (by decide)]

/-- The digits of a number are read as that number. -/
theorem digits?_toString (n : Nat) : digits? (toString n).toList = some n :=
  digits?_eq (decimal_toString n)

/-! ### All texts of a number -/

/-- Digits do not begin with a sign. -/
theorem Decimal.head?_ne (h : Decimal n ds) (sign : c.isDigit = false) : ds.head? ≠ some c := by
  intro first
  have digit := h.digits c (List.mem_of_mem_head? first)
  exact Bool.noConfusion (sign.symm.trans digit)

theorem Writes.head?_ne (h : Writes n cs) : cs.head? ≠ some '-' := by
  cases h with
  | plain decimal => exact decimal.head?_ne (by decide)
  | plus _ => exact fun same => absurd (Option.some.inj same) (by decide)

/-- **All texts of a number are read as that number**, where it has room. -/
theorem below?_eq (h : Writes n cs) (room : n < limit) : below? limit cs = some n := by
  have kept : (some n).filter (· < limit) = some n := by simp [room]
  cases h with
  | plain decimal =>
    have unsigned : ∀ ds, cs ≠ '+' :: ds := fun ds signed =>
      decimal.head?_ne (c := '+') (by decide) (signed ▸ rfl)
    rw [below?, digits?_eq decimal, kept]
    exact unsigned
  | plus decimal => rw [below?, digits?_eq decimal, kept]

end Number

end Chip8
