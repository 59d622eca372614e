import Mathlib.Algebra.Group.Nat.Defs
import Chip8.Instruction.Encoding
import Chip8.Proofs.Text.Recovering

/-!
# Instructions and words

Each instruction whose operands are as large as its pattern allows is written as one word, and each
word that can be read at all is the one that its instruction is written as.

* `Instruction.spelled` : the number that the pattern of an instruction spells.
* `Instruction.toNat_encode` : an instruction is written as its pattern spells it.
* `Instruction.decode_encode`, `Instruction.encode_of_decode` : reading and writing undo each other.
* `Instruction.description_inj` : the text of an instruction determines it.
-/

namespace Chip8

namespace Instruction

/-! ### What a pattern spells -/

/-- The operands are as large as their letters in the pattern allow. -/
def Fits : Instruction → Prop
  | jump nnn | call nnn | setIndex nnn | jumpOffset nnn => nnn < 0x1000
  | draw _ _ n => n < 0x10
  | _ => True

/-- The operand under a letter of the pattern. -/
def operand (op : Instruction) (letter : Char) : Nat :=
  ((op.operands.find? fun (name, _) => name.toList.head? = some letter.toLower).map
    Prod.snd).getD 0

/-- The digit that a character of the pattern stands for, `place` digits from the right: `X` and `Y`
stand for a whole operand, `N` for one digit of it, and a digit for itself. -/
def digitAt (op : Instruction) (place : Nat) (c : Char) : Nat :=
  if c = 'X' ∨ c = 'Y' then op.operand c
  else if c = 'N' then op.operand c / 16 ^ place % 16
  else if c.isDigit then c.toNat - '0'.toNat
  else c.toNat - 'A'.toNat + 10

/-- The number that the last characters of the pattern spell. -/
def spell (op : Instruction) : List Char → Nat
  | [] => 0
  | c :: rest => op.digitAt rest.length c * 16 ^ rest.length + op.spell rest

/-- The number that the pattern spells. -/
def spelled (op : Instruction) : Nat := op.spell op.pattern.toList

/-! ### Words and their fields -/

section

variable {first nnn : UInt16} {x y : Register} {nn n : UInt8}

theorem toNat_wordNNN (hf : first < 0x10) (h : nnn < 0x1000) :
    (wordNNN first nnn).toNat = first.toNat * 0x1000 + nnn.toNat := by
  have hf : first.toNat < 0x10 := hf
  have h : nnn.toNat < 0x1000 := h
  simp only [wordNNN, UInt16.toNat_add, UInt16.toNat_mul, UInt16.reduceToNat]
  omega

theorem toNat_wordXNN (hf : first < 0x10) :
    (wordXNN first x nn).toNat = first.toNat * 0x1000 + x.val * 0x100 + nn.toNat := by
  have hf : first.toNat < 0x10 := hf
  have hx := x.isLt
  have hn := nn.toNat_lt
  simp only [wordXNN, UInt16.toNat_add, UInt16.toNat_mul, UInt16.toNat_ofNat', UInt16.reduceToNat,
    UInt8.toNat_toUInt16]
  omega

theorem toNat_wordXYN (hf : first < 0x10) (h : n < 0x10) :
    (wordXYN first x y n).toNat =
      first.toNat * 0x1000 + x.val * 0x100 + y.val * 0x10 + n.toNat := by
  have hf : first.toNat < 0x10 := hf
  have h : n.toNat < 0x10 := h
  have hx := x.isLt
  have hy := y.isLt
  simp only [wordXYN, UInt16.toNat_add, UInt16.toNat_mul, UInt16.toNat_ofNat', UInt16.reduceToNat,
    UInt8.toNat_toUInt16]
  omega

variable (w : UInt16)

theorem toNat_family : (family w).toNat = w.toNat / 0x1000 := rfl

theorem val_fieldX : (fieldX w).val = w.toNat / 0x100 % 0x10 := rfl

theorem val_fieldY : (fieldY w).val = w.toNat / 0x10 % 0x10 := rfl

theorem toNat_fieldNNN : (fieldNNN w).toNat = w.toNat % 0x1000 := rfl

theorem toNat_fieldNN : (fieldNN w).toNat = w.toNat % 0x100 := by
  simp [fieldNN]

theorem toNat_fieldN : (fieldN w).toNat = w.toNat % 0x10 := by
  simp [fieldN]
  omega

theorem family_lt : family w < 0x10 := by
  have hw := w.toNat_lt
  show (family w).toNat < 0x10
  rw [toNat_family]
  omega

theorem fieldNNN_lt : fieldNNN w < 0x1000 := by
  show (fieldNNN w).toNat < 0x1000
  rw [toNat_fieldNNN]
  omega

theorem fieldN_lt : fieldN w < 0x10 := by
  show (fieldN w).toNat < 0x10
  rw [toNat_fieldN]
  omega

/-! A word is written from its own fields. -/

theorem wordNNN_eq (hf : family w = first) (h : fieldNNN w = nnn) : wordNNN first nnn = w := by
  subst hf h
  apply UInt16.toNat_inj.1
  rw [toNat_wordNNN (family_lt w) (fieldNNN_lt w), toNat_family, toNat_fieldNNN]
  omega

theorem wordXNN_eq (hf : family w = first) (h : fieldNN w = nn) :
    wordXNN first (fieldX w) nn = w := by
  subst hf h
  apply UInt16.toNat_inj.1
  rw [toNat_wordXNN (family_lt w), toNat_family, val_fieldX, toNat_fieldNN]
  omega

theorem wordXYN_eq (hf : family w = first) (h : fieldN w = n) :
    wordXYN first (fieldX w) (fieldY w) n = w := by
  subst hf h
  apply UInt16.toNat_inj.1
  rw [toNat_wordXYN (family_lt w) (fieldN_lt w), toNat_family, val_fieldX, val_fieldY,
    toNat_fieldN]
  omega

/-! The fields of a word are those that it was written from. -/

theorem fields_wordNNN (hf : first < 0x10) (h : nnn < 0x1000) :
    family (wordNNN first nnn) = first ∧ fieldNNN (wordNNN first nnn) = nnn := by
  have word := toNat_wordNNN hf h
  have h : nnn.toNat < 0x1000 := h
  refine ⟨UInt16.toNat_inj.1 ?_, UInt16.toNat_inj.1 ?_⟩
  · rw [toNat_family]
    omega
  · rw [toNat_fieldNNN]
    omega

theorem fields_wordXNN (hf : first < 0x10) :
    family (wordXNN first x nn) = first ∧ fieldX (wordXNN first x nn) = x ∧
      fieldNN (wordXNN first x nn) = nn := by
  have word : (wordXNN first x nn).toNat = _ := toNat_wordXNN hf
  have hx := x.isLt
  have hn := nn.toNat_lt
  refine ⟨UInt16.toNat_inj.1 ?_, Fin.ext ?_, UInt8.toNat_inj.1 ?_⟩
  · rw [toNat_family]
    omega
  · rw [val_fieldX]
    omega
  · rw [toNat_fieldNN]
    omega

theorem fields_wordXYN (hf : first < 0x10) (h : n < 0x10) :
    family (wordXYN first x y n) = first ∧ fieldX (wordXYN first x y n) = x ∧
      fieldY (wordXYN first x y n) = y ∧ fieldN (wordXYN first x y n) = n := by
  have word : (wordXYN first x y n).toNat = _ := toNat_wordXYN hf h
  have h : n.toNat < 0x10 := h
  have hx := x.isLt
  have hy := y.isLt
  refine ⟨UInt16.toNat_inj.1 ?_, Fin.ext ?_, Fin.ext ?_, UInt8.toNat_inj.1 ?_⟩
  · rw [toNat_family]
    omega
  · rw [val_fieldX]
    omega
  · rw [val_fieldY]
    omega
  · rw [toNat_fieldN]
    omega

end

/-! ### Writing, then reading -/

theorem decode_encode {op : Instruction} (h : op.Fits) : decode op.encode = some op := by
  cases op with
  | clearScreen | ret => decide
  | jump | call | setIndex | jumpOffset => simp [encode, decode, fields_wordNNN _ h]
  | draw => simp [encode, decode, fields_wordXYN _ h]
  | skipIfByte | skipUnlessByte | setByte | addByte | random | skipIfKey | skipUnlessKey =>
    simp [encode, decode, fields_wordXNN]
  | readDelay | waitForKey | setDelay | setSound | addIndex | pointAtGlyph | storeDecimal
  | storeRegisters | loadRegisters =>
    simp [encode, decode, fields_wordXNN, decodeDevice]
  | skipIfSame | skipUnlessSame => simp [encode, decode, fields_wordXYN]
  | copy | or | and | xor | add | subtract | shiftRight | subtractFrom | shiftLeft =>
    simp [encode, decode, fields_wordXYN, decodeArithmetic]

/-! ### Reading, then writing -/

theorem encode_of_decodeArithmetic {x y : Register} {n : UInt8} {op : Instruction}
    (h : decodeArithmetic x y n = some op) : op.Fits ∧ op.encode = wordXYN 0x8 x y n := by
  unfold decodeArithmetic at h
  split at h <;> cases h <;> exact ⟨trivial, rfl⟩

theorem encode_of_decodeDevice {x : Register} {nn : UInt8} {op : Instruction}
    (h : decodeDevice x nn = some op) : op.Fits ∧ op.encode = wordXNN 0xF x nn := by
  unfold decodeDevice at h
  split at h <;> cases h <;> exact ⟨trivial, rfl⟩

/-- The instruction that a word stands for fits, and is written as this word. -/
theorem encode_of_decode {w : UInt16} {op : Instruction} (h : decode w = some op) :
    op.Fits ∧ op.encode = w := by
  unfold decode at h
  simp only at h
  -- One case for each first digit, in their order, and a last one for no digit.
  split at h
  case h_1 first =>
    split at h
    case isTrue nnn =>
      cases h
      exact ⟨trivial, wordNNN_eq w first nnn⟩
    case isFalse =>
      split at h <;> cases h
      rename_i nnn
      exact ⟨trivial, wordNNN_eq w first nnn⟩
  case h_2 first | h_3 first | h_11 first | h_12 first =>
    cases h
    exact ⟨fieldNNN_lt w, wordNNN_eq w first rfl⟩
  case h_4 first | h_5 first | h_7 first | h_8 first | h_13 first =>
    cases h
    exact ⟨trivial, wordXNN_eq w first rfl⟩
  case h_6 first | h_10 first =>
    split at h <;> cases h
    rename_i n
    exact ⟨trivial, wordXYN_eq w first n⟩
  case h_9 first =>
    obtain ⟨fits, written⟩ := encode_of_decodeArithmetic h
    exact ⟨fits, written.trans (wordXYN_eq w first rfl)⟩
  case h_14 first =>
    cases h
    exact ⟨fieldN_lt w, wordXYN_eq w first rfl⟩
  case h_15 first =>
    split at h
    case isTrue nn =>
      cases h
      exact ⟨trivial, wordXNN_eq w first nn⟩
    case isFalse =>
      split at h <;> cases h
      rename_i nn
      exact ⟨trivial, wordXNN_eq w first nn⟩
  case h_16 first =>
    obtain ⟨fits, written⟩ := encode_of_decodeDevice h
    exact ⟨fits, written.trans (wordXNN_eq w first rfl)⟩
  case h_17 => cases h

/-- **A word stands for an instruction exactly if the instruction is written as this word.** -/
theorem decode_eq_some_iff {w : UInt16} {op : Instruction} :
    decode w = some op ↔ op.Fits ∧ op.encode = w := by
  constructor
  · exact encode_of_decode
  · rintro ⟨fits, rfl⟩
    exact decode_encode fits

theorem decode_eq_none_iff {w : UInt16} :
    decode w = none ↔ ∀ op : Instruction, op.Fits → op.encode ≠ w := by
  simp only [Option.eq_none_iff_forall_ne_some, ne_eq, decode_eq_some_iff, not_and]

theorem ofWord_eq_error_iff {w v : UInt16} : ofWord w = .error v ↔ decode w = none ∧ v = w := by
  unfold ofWord
  cases decode w with
  | none => simp [eq_comm]
  | some op => simp

/-! ### The spelling of a word -/

section

variable {op : Instruction}

theorem toNat_encode (h : op.Fits) : op.encode.toNat = op.spelled := by
  unfold spelled
  cases op with
  | clearScreen | ret => decide
  | jump nnn | call nnn | setIndex nnn | jumpOffset nnn =>
    have bound : nnn.toNat < 0x1000 := h
    simp [encode, toNat_wordNNN _ h, pattern, spell, digitAt, operand, operands]
    omega
  | draw x y n =>
    have bound : n.toNat < 0x10 := h
    simp [encode, toNat_wordXYN _ h, pattern, spell, digitAt, operand, operands]
    omega
  | skipIfByte x nn | skipUnlessByte x nn | setByte x nn | addByte x nn | random x nn =>
    have bound := nn.toNat_lt
    simp [encode, toNat_wordXNN, pattern, spell, digitAt, operand, operands]
    omega
  | skipIfSame | skipUnlessSame | copy | or | and | xor | add | subtract | shiftRight | subtractFrom
  | shiftLeft =>
    simp [encode, toNat_wordXYN, pattern, spell, digitAt, operand, operands]
    omega
  | _ =>
    simp [encode, toNat_wordXNN, pattern, spell, digitAt, operand, operands]
    omega

theorem eq_of_spelled {op' : Instruction} (fits : op.Fits) (fits' : op'.Fits)
    (h : op.spelled = op'.spelled) : op = op' := by
  have same : op.encode = op'.encode := by
    rw [← UInt16.toNat_inj, toNat_encode fits, h, toNat_encode fits']
  have read := decode_encode fits
  rw [same, decode_encode fits'] at read
  exact (Option.some.inj read).symm

end

/-! ### The text of an instruction -/

section

variable {op op' : Instruction}

theorem spell_congr (same : op.operands = op'.operands) (cs : List Char) :
    op.spell cs = op'.spell cs := by
  induction cs with
  | nil => rfl
  | cons c cs ih => simp only [spell, digitAt, operand, same, ih]

theorem space_not_mem_pattern (op : Instruction) : ' ' ∉ ("_" ++ op.pattern).toList := by
  cases op <;> simp [pattern]

theorem colon_not_mem_operands (op : Instruction) : ∀ f ∈ op.operands, ':' ∉ f.1.toList := by
  cases op <;> simp [operands]

/-- **The text of an instruction determines it.** -/
theorem description_inj (fits : op.Fits) (fits' : op'.Fits)
    (h : op.description = op'.description) : op = op' := by
  obtain ⟨names, fields⟩ := Fields.text_inj op.space_not_mem_pattern op'.space_not_mem_pattern
    op.colon_not_mem_operands op'.colon_not_mem_operands h
  rw [String.append_right_inj] at names
  refine eq_of_spelled fits fits' ?_
  rw [spelled, spelled, names, spell_congr fields]

end

end Instruction

end Chip8
