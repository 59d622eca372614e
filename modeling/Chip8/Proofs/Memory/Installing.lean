import Chip8.Proofs.Memory.Storing

/-!
# Font and program in memory

Font and program are laid over cells that lie apart, and a program is only laid down if all of it
finds room.

* `Memory.ext_read` : memory is determined by what is read.
* `Memory.read_overlay_of_outside`, `Memory.overlay_comm` : bytes that are laid over memory leave
  the other cells alone, and may be laid down in any order if they lie apart.
* `Memory.install_eq_error_iff`, `Memory.install_installFont` : when a program is refused, and that
  the font makes no difference to it.
* `Memory.HasFont` : the font lies in its place, as it does once it was put there
  (`Memory.hasFont_installFont`) and as long as nothing is stored in its cells
  (`Memory.HasFont.store`).
-/

namespace Chip8

/-- The rows of the glyph of a digit. -/
def Font.glyph (d : Nat) : List UInt8 :=
  (List.range glyphHeight).map fun r => glyphs.getD (glyphHeight * d + r) 0

example : Font.glyph 0xA = [0xF0, 0x90, 0xF0, 0x90, 0x90] := by decide

namespace Memory

/-- The font lies in its place. -/
def HasFont (m : Memory) : Prop :=
  ∀ i < Font.glyphs.size, m.read (UInt16.ofNat (fontStart.toNat + i)) = Font.glyphs.getD i 0

variable (m : Memory) {a : UInt16} {start start' : Nat} {bytes bytes' program : Array UInt8}

/-! ### Bytes laid over memory -/

/-- Cells that are given by a function, as a list of them.  In this form they can be evaluated. -/
theorem ofFn_eq_mk {n : Nat} (f : Fin n → UInt8) :
    Vector.ofFn f = ⟨(List.ofFn f).toArray, List.size_toArray.trans List.length_ofFn⟩ := by
  refine Vector.ext fun i h => ?_
  rw [Vector.getElem_ofFn]
  exact (List.getElem_ofFn _).symm

theorem ext_read {m n : Memory} (h : ∀ a, m.read a = n.read a) : m = n := by
  cases m with | mk c
  cases n with | mk d
  congr 1
  refine Vector.ext fun i hi => ?_
  have place : cell (UInt16.ofNat i) = ⟨i, hi⟩ := by
    refine Fin.ext ?_
    show (UInt16.ofNat i).toNat % 4096 = i
    rw [UInt16.toNat_ofNat']
    omega
  have same := h (UInt16.ofNat i)
  simp only [read, place] at same
  exact same

theorem read_overlay_of_outside
    (outside : a.toNat % 4096 < start ∨ start + bytes.size ≤ a.toNat % 4096) :
    (m.overlay start bytes).read a = m.read a := by
  have place : (cell a).val = a.toNat % 4096 := rfl
  rw [read_overlay, place]
  split
  · have beyond : ¬ a.toNat % 4096 - start < bytes.size := by omega
    simp [Array.getD, beyond]
  · rfl

/-- What lies in a cell afterwards depends on nothing but what lay there before. -/
theorem read_overlay_congr {m n : Memory} (h : m.read a = n.read a) :
    (m.overlay start bytes).read a = (n.overlay start bytes).read a := by
  rw [read_overlay, read_overlay, h]

/-- Bytes that lie apart may be laid down in any order. -/
theorem overlay_comm (apart : start + bytes.size ≤ start') :
    (m.overlay start bytes).overlay start' bytes' =
      (m.overlay start' bytes').overlay start bytes := by
  refine ext_read fun a => ?_
  rcases Nat.lt_or_ge (a.toNat % 4096) start' with before | behind
  · have kept (n : Memory) : (n.overlay start' bytes').read a = n.read a :=
      n.read_overlay_of_outside (.inl before)
    exact (kept _).trans (read_overlay_congr (kept m).symm)
  · have kept (n : Memory) : (n.overlay start bytes).read a = n.read a :=
      n.read_overlay_of_outside (.inr (Nat.le_trans apart behind))
    exact (read_overlay_congr (kept m)).trans (kept _).symm

/-! ### Programs -/

/-- **A program is refused exactly if it is too large**, and then by its size and the room there
is. -/
theorem install_eq_error_iff {f : Fault} :
    m.install program = .error f ↔
      programLimit < program.size ∧ f = .programTooLarge program.size programLimit := by
  unfold install
  split
  · rename_i fits
    exact ⟨nofun, fun ⟨large, _⟩ => absurd fits (Nat.not_le.2 large)⟩
  · rename_i large
    rw [Except.error.injEq]
    exact ⟨fun same => ⟨Nat.lt_of_not_le large, same.symm⟩, fun ⟨_, same⟩ => same.symm⟩

/-! ### The font -/

theorem read_installFont_of_outside (outside : Font.glyphs.size ≤ a.toNat % 4096) :
    m.installFont.read a = m.read a :=
  m.read_overlay_of_outside (.inr ((Nat.zero_add _).symm ▸ outside))

/-- Font and program lie apart. -/
theorem overlay_installFont :
    m.installFont.overlay programStart.toNat program =
      (m.overlay programStart.toNat program).installFont :=
  m.overlay_comm (by decide)

/-- **The font makes no difference to a program**, be it that it fits or not. -/
theorem install_installFont :
    m.installFont.install program = (m.install program).map installFont := by
  unfold install
  split
  · exact congrArg Except.ok m.overlay_installFont
  · rfl

theorem hasFont_installFont : m.installFont.HasFont := by
  intro i less
  have room : fontStart.toNat + Font.glyphs.size ≤ 4096 := by decide
  rw [installFont, read_overlay_of_lt m less room]
  simp [Array.getD, less]

/-- The font stays as long as nothing is stored in its cells. -/
theorem HasFont.store {m : Memory} (h : HasFont m) {byte : Nat → UInt8} {n : Nat}
    (apart : ∀ k < n, Font.glyphs.size ≤ (a.toNat + k) % 4096) : HasFont (m.store a byte n) := by
  intro i less
  refine (m.read_store_of_outside fun k inside => ?_).trans (h i less)
  have beyond := apart k inside
  have place : (UInt16.ofNat (fontStart.toNat + i)).toNat = (0 + i) % 65536 :=
    UInt16.toNat_ofNat'
  have size : Font.glyphs.size = 80 := Font.size_glyphs
  omega

end Memory

end Chip8
