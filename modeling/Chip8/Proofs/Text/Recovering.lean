import Chip8.Proofs.Text.Number
import Chip8.Text.Fields
import Chip8.Text.Hex

/-!
# Texts that tell what was written

A hexadecimal number and a name with its fields are determined by their text, also where the text
goes on.

* `Pieces.append_inj` : characters of one class end where the first other character stands.
* `Hex.worth_padded`, `Hex.address_inj` : a number is what its digits are worth, and an address is
  determined by its text.
* `Fields.text_inj` : the text of named fields determines the name and each field.
-/

namespace Chip8

namespace Pieces

variable {p : Char → Bool} {c : Char} {front front' rest rest' : List Char}

theorem takeWhile_append (inside : ∀ c ∈ front, p c = true)
    (ends : ∀ c ∈ rest.head?, p c = false) : (front ++ rest).takeWhile p = front := by
  have stop : rest.takeWhile p = [] := by
    cases rest with
    | nil => rfl
    | cons c cs => exact List.takeWhile_cons_of_neg (by simp [ends c rfl])
  rw [List.takeWhile_append_of_pos inside, stop, List.append_nil]

/-- **Characters of one class end where the first other character stands.** -/
theorem append_inj (inside : ∀ c ∈ front, p c = true) (inside' : ∀ c ∈ front', p c = true)
    (ends : ∀ c ∈ rest.head?, p c = false) (ends' : ∀ c ∈ rest'.head?, p c = false)
    (h : front ++ rest = front' ++ rest') : front = front' ∧ rest = rest' := by
  obtain rfl : front = front' := by
    rw [← takeWhile_append inside ends, h, takeWhile_append inside' ends']
  exact ⟨rfl, List.append_cancel_left h⟩

/-- What stands before the first separator, and what behind it. -/
theorem append_cons_inj (absent : c ∉ front) (absent' : c ∉ front')
    (h : front ++ c :: rest = front' ++ c :: rest') : front = front' ∧ rest = rest' := by
  have others {cs : List Char} (absent : c ∉ cs) : ∀ d ∈ cs, (d != c) = true := by
    intro d mem
    simpa using ne_of_mem_of_not_mem mem absent
  have ends (cs : List Char) : ∀ d ∈ (c :: cs).head?, (d != c) = false := by simp
  obtain ⟨before, behind⟩ := append_inj (others absent) (others absent') (ends rest) (ends rest') h
  exact ⟨before, (List.cons.inj behind).2⟩

end Pieces

/-! ### Hexadecimal numbers -/

namespace Hex

/-- The characters of which numbers consist. -/
def alphabet : List Char := "0123456789ABCDEF".toList

/-- The value of a digit. -/
def value (c : Char) : Nat :=
  if c.isDigit then c.toNat - '0'.toNat else c.toNat - 'A'.toNat + 10

/-- What digits are worth. -/
def worth (ds : List Char) : Nat := ds.foldl (fun n d => n * 16 + value d) 0

variable {width n k : Nat} {c : Char}

theorem worth_concat (ds : List Char) (d : Char) : worth (ds ++ [d]) = worth ds * 16 + value d :=
  List.foldl_append ..

theorem worth_zeros (k : Nat) (ds : List Char) : worth (List.replicate k '0' ++ ds) = worth ds := by
  induction k with
  | zero => rfl
  | succ k ih => exact ih

theorem digit_of_lt : ∀ d < 16, d.digitChar.toUpper ∈ alphabet ∧ value d.digitChar.toUpper = d := by
  decide +kernel

theorem digits_eq (n : Nat) :
    digits n = (if n < 16 then [] else digits (n / 16)) ++ [(n % 16).digitChar.toUpper] := by
  unfold digits
  rw [Nat.toDigits_eq_if (by decide)]
  split
  · rename_i small
    rw [Nat.mod_eq_of_lt small]
    rfl
  · rw [List.map_append]
    rfl

/-- **A number is what its digits are worth.** -/
theorem worth_digits (n : Nat) : worth (digits n) = n := by
  induction n using Nat.strongRecOn with
  | ind n ih =>
    rw [digits_eq, worth_concat, (digit_of_lt (n % 16) (Nat.mod_lt n (by decide))).2]
    split
    · rename_i small
      exact (Nat.zero_add _).trans (Nat.mod_eq_of_lt small)
    · rename_i large
      rw [ih (n / 16) (by omega)]
      exact Nat.div_add_mod' n 16

theorem mem_alphabet (n : Nat) : ∀ d ∈ digits n, d ∈ alphabet := by
  induction n using Nat.strongRecOn with
  | ind n ih =>
    intro d mem
    rw [digits_eq, List.mem_append, List.mem_singleton] at mem
    obtain front | rfl := mem
    · split at front
      · cases front
      · exact ih (n / 16) (by omega) d front
    · exact (digit_of_lt (n % 16) (Nat.mod_lt n (by decide))).1

theorem toList_padded (width n : Nat) :
    (padded width n).toList =
      List.replicate (width - (digits n).length) '0' ++ digits n :=
  String.toList_ofList

theorem worth_padded (width n : Nat) : worth (padded width n).toList = n := by
  rw [toList_padded, worth_zeros, worth_digits]

theorem padded_inj (h : (padded width n).toList = (padded width k).toList) : n = k := by
  rw [← worth_padded width n, h, worth_padded]

theorem not_mem_padded (other : c ∉ alphabet) : c ∉ (padded width n).toList := by
  rw [toList_padded, List.mem_append]
  rintro (zero | digit)
  · exact other (List.eq_of_mem_replicate zero ▸ by decide)
  · exact other (mem_alphabet n c digit)

section

variable {a b : UInt16}

theorem toList_address (a : UInt16) :
    (address a).toList = '0' :: 'x' :: (padded 3 a.toNat).toList :=
  String.toList_append

/-- **An address is determined by its text.** -/
theorem address_inj (h : (address a).toList = (address b).toList) : a = b := by
  rw [toList_address, toList_address] at h
  exact UInt16.toNat_inj.1 (padded_inj (List.cons.inj (List.cons.inj h).2).2)

theorem not_mem_address (other : c ∉ alphabet) (mark : c ≠ 'x') : c ∉ (address a).toList := by
  have zero : c ≠ '0' := fun same => other (same ▸ by decide)
  rw [toList_address, List.mem_cons, List.mem_cons, not_or, not_or]
  exact ⟨zero, mark, not_mem_padded other⟩

end

end Hex

/-! ### Named fields -/

namespace Fields

variable {name name' : String} {f f' : String × Nat} {fields fields' : List (String × Nat)}

/-- What follows a field: the other fields, and the brace. -/
def rest : List (String × Nat) → List Char
  | [] => [' ', '\x7d']
  | f :: fields => ',' :: ' ' :: ((field f).toList ++ rest fields)

/-- The fields are written behind the name, each with its name and its value. -/
theorem text_eq (name : String) (fields : List (String × Nat)) :
    text name fields = name ++
      if fields = [] then ""
      else " \x7b " ++
        ", ".intercalate (fields.map fun (name, value) => name ++ ": " ++ toString value) ++
        " \x7d" := by
  cases fields with
  | nil => exact String.append_empty.symm
  | cons f fields =>
    rw [if_neg (List.cons_ne_nil f fields), text, if_neg (by simp), String.append_assoc,
      String.append_assoc, String.append_assoc]
    rfl

theorem toList_field (f : String × Nat) :
    (field f).toList = f.1.toList ++ ':' :: ' ' :: (toString f.2).toList := by
  simp [field]

theorem toList_intercalate (f : String × Nat) (fields : List (String × Nat)) :
    (", ".intercalate ((f :: fields).map field)).toList ++ [' ', '\x7d'] =
      (field f).toList ++ rest fields := by
  induction fields generalizing f with
  | nil => rfl
  | cons g fields ih =>
    rw [List.map_cons, List.map_cons, String.intercalate_cons_cons, ← List.map_cons,
      String.toList_append, String.toList_append, List.append_assoc, ih]
    exact List.append_assoc ..

theorem toList_text_cons (name : String) (f : String × Nat) (fields : List (String × Nat)) :
    (text name (f :: fields)).toList =
      name.toList ++ ' ' :: '\x7b' :: ' ' :: ((field f).toList ++ rest fields) := by
  rw [← toList_intercalate, text, if_neg (by simp), String.toList_append, String.toList_append,
    String.toList_append, List.append_assoc, List.append_assoc]
  rfl

theorem head?_rest (fields : List (String × Nat)) :
    ∀ c ∈ (rest fields).head?, c.isDigit = false := by
  intro c first
  cases fields <;> cases first <;> decide

/-- A field is determined by its text, whatever follows it. -/
theorem field_inj (plain : ':' ∉ f.1.toList) (plain' : ':' ∉ f'.1.toList)
    (h : (field f).toList ++ rest fields = (field f').toList ++ rest fields') :
    f = f' ∧ rest fields = rest fields' := by
  rw [toList_field, toList_field, List.append_assoc, List.append_assoc] at h
  obtain ⟨names, values⟩ := Pieces.append_cons_inj plain plain' h
  obtain ⟨numbers, behind⟩ := Pieces.append_inj (fun _ => Number.isDigit_toString)
    (fun _ => Number.isDigit_toString) (head?_rest fields) (head?_rest fields')
    (List.cons.inj values).2
  have value : f.2 = f'.2 := by
    rw [← (Number.decimal_toString f.2).worth, numbers, (Number.decimal_toString f'.2).worth]
  exact ⟨Prod.ext (String.toList_inj.1 names) value, behind⟩

theorem rest_inj (plain : ∀ f ∈ fields, ':' ∉ f.1.toList)
    (plain' : ∀ f ∈ fields', ':' ∉ f.1.toList) (h : rest fields = rest fields') :
    fields = fields' := by
  induction fields generalizing fields' with
  | nil =>
    cases fields' with
    | nil => rfl
    | cons f' fields' => cases h
  | cons f fields ih =>
    cases fields' with
    | nil => cases h
    | cons f' fields' =>
      rw [List.forall_mem_cons] at plain plain'
      have texts := (List.cons.inj (List.cons.inj h).2).2
      obtain ⟨rfl, behind⟩ := field_inj plain.1 plain'.1 texts
      rw [ih plain.2 plain'.2 behind]

/-- **The text of named fields determines the name and each field.** -/
theorem text_inj (bare : ' ' ∉ name.toList) (bare' : ' ' ∉ name'.toList)
    (plain : ∀ f ∈ fields, ':' ∉ f.1.toList) (plain' : ∀ f ∈ fields', ':' ∉ f.1.toList)
    (h : text name fields = text name' fields') : name = name' ∧ fields = fields' := by
  have same := congrArg String.toList h
  cases fields with
  | nil =>
    cases fields' with
    | nil => exact ⟨h, rfl⟩
    | cons f' fields' =>
      -- The name alone has no blank.
      rw [toList_text_cons] at same
      exact (bare (same ▸ by simp)).elim
  | cons f fields =>
    cases fields' with
    | nil =>
      rw [toList_text_cons] at same
      exact (bare' (same ▸ by simp)).elim
    | cons f' fields' =>
      rw [toList_text_cons, toList_text_cons] at same
      obtain ⟨names, behind⟩ := Pieces.append_cons_inj bare bare' same
      rw [List.forall_mem_cons] at plain plain'
      have texts := (List.cons.inj (List.cons.inj behind).2).2
      obtain ⟨rfl, others⟩ := field_inj plain.1 plain'.1 texts
      exact ⟨String.toList_inj.1 names, by rw [rest_inj plain.2 plain'.2 others]⟩

end Fields

end Chip8
