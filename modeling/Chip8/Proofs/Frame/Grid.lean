import Mathlib.Data.List.DropRight
import Mathlib.Data.List.Induction
import Mathlib.Data.Set.Card
import Chip8.Proofs.Frame.Toggling

/-!
# The packed picture is a grid

A picture is drawn by strokes: pixels are flipped, it is cleared, and copies are taken of it.  Its
bytes are read in three ways, as bytes, row by row, and pixel by pixel, and all of them show the
grid of pixels that the strokes have left (`Frame.packed_refines_grid`).

* `Frame.frame_sketch` : a picture is the dark one with the points flipped since it was cleared
  last.
* `Frame.pixel_eq_testBit`, `Frame.rows_eq_bits` : the pixels are the bits of the bytes, the highest
  bit of a byte first, eight bytes a row.
* `Frame.litCount_eq_ncard`, `Frame.lit_flip` : the lit pixels are counted, and each flip adds one
  to them or takes one away.
* `Frame.copies_sketch` : a copy stays as it was when it was taken.
-/

namespace Chip8

namespace Frame

/-- What is done to a picture. -/
inductive Stroke where
  /-- Flip the pixel at a point. -/
  | toggle (x y : ℕ)
  /-- Switch every pixel off. -/
  | clear
  /-- Take a copy. -/
  | copy
  deriving DecidableEq

/-- A picture, and the copies that were taken of it, in order. -/
structure Sketch where
  frame : Frame
  copies : List Frame

def Sketch.stroke (s : Sketch) : Stroke → Sketch
  | .toggle x y => { s with frame := (s.frame.toggle x y).1 }
  | .clear => { s with frame := dark }
  | .copy => { s with copies := s.copies ++ [s.frame] }

/-- What some strokes make of a new picture. -/
def sketch (strokes : List Stroke) : Sketch := strokes.foldl Sketch.stroke ⟨dark, []⟩

/-- The point whose pixel a stroke flips, if it flips one. -/
def Stroke.point? : Stroke → Option (ℕ × ℕ)
  | .toggle x y => some (x, y)
  | _ => none

/-- The points that were flipped after the picture was cleared last. -/
def flipped (strokes : List Stroke) : List (ℕ × ℕ) :=
  (strokes.rtakeWhile (· ≠ .clear)).filterMap Stroke.point?

/-- The bits of some bytes, the highest bit of each byte first. -/
def bits (bytes : List UInt8) : List Bool :=
  bytes.flatMap fun b => (List.range 8).map fun i => b.toNat.testBit (7 - i)

/-- The lit pixels of the grid. -/
def lit (f : Frame) : Set (ℕ × ℕ) := {p | f.pixel? p.1 p.2 = some true}

variable (f : Frame) {x y : ℕ} {strokes : List Stroke}

/-! ### Strokes -/

theorem sketch_concat (strokes : List Stroke) (s : Stroke) :
    sketch (strokes ++ [s]) = (sketch strokes).stroke s :=
  List.foldl_concat ..

theorem flipped_concat_clear (strokes : List Stroke) : flipped (strokes ++ [.clear]) = [] := by
  rw [flipped, List.rtakeWhile_concat, if_neg (by decide)]
  rfl

theorem flipped_concat {s : Stroke} (h : s ≠ .clear) :
    flipped (strokes ++ [s]) = flipped strokes ++ s.point?.toList := by
  rw [flipped, List.rtakeWhile_concat, if_pos (decide_eq_true h), List.filterMap_append]
  cases s <;> rfl

/-- **Only the points that were flipped since the picture was cleared last matter.** -/
theorem frame_sketch (strokes : List Stroke) :
    (sketch strokes).frame = (dark.toggleAll (flipped strokes)).1 := by
  induction strokes using List.reverseRecOn with
  | nil => rfl
  | append_singleton strokes s ih =>
    rw [sketch_concat]
    cases s with
    | toggle x y =>
      rw [flipped_concat (s := .toggle x y) nofun, toggleAll_append, ← ih]
      rfl
    | clear =>
      rw [flipped_concat_clear]
      rfl
    | copy =>
      rw [flipped_concat (s := .copy) nofun, toggleAll_append, ← ih]
      rfl

theorem pixel_sketch (strokes : List Stroke) (x y : ℕ) :
    (sketch strokes).frame.pixel x y = decide (Odd (hits (flipped strokes) x y)) := by
  rw [frame_sketch, pixel_toggleAll, pixel_dark, Bool.false_xor]

/-! ### Copies -/

/-- Copies are only added. -/
theorem copies_foldl (s : Sketch) (strokes : List Stroke) :
    ∃ later, (strokes.foldl Sketch.stroke s).copies = s.copies ++ later := by
  induction strokes generalizing s with
  | nil => exact ⟨[], (List.append_nil _).symm⟩
  | cons stroke strokes ih =>
    obtain ⟨later, rest⟩ := ih (s.stroke stroke)
    rw [List.foldl_cons, rest]
    cases stroke with
    | copy => exact ⟨s.frame :: later, List.append_assoc ..⟩
    | toggle | clear => exact ⟨later, rfl⟩

/-- **A copy stays as it was when it was taken**, whatever is done to the picture later. -/
theorem copies_sketch (before after : List Stroke) :
    (sketch (before ++ .copy :: after)).copies[(sketch before).copies.length]? =
      some (sketch before).frame := by
  obtain ⟨later, rest⟩ := copies_foldl ((sketch before).stroke .copy) after
  have all : (sketch (before ++ .copy :: after)).copies =
      (sketch before).copies ++ (sketch before).frame :: later := by
    rw [sketch, List.foldl_append, List.foldl_cons]
    exact rest.trans (List.append_assoc ..)
  rw [all, List.getElem?_append_right (Nat.le_refl _), Nat.sub_self]
  rfl

/-! ### Bytes, rows and pixels -/

theorem pixel?_of_lt (hx : x < 64) (hy : y < 32) : f.pixel? x y = some (f.pixel x y) :=
  if_pos ⟨hx, hy⟩

/-- A point beyond the edges is found at its place on the grid. -/
theorem pixel?_mod (x y : ℕ) : f.pixel? (x % 64) (y % 32) = some (f.pixel x y) := by
  have hx : x % 64 < 64 := Nat.mod_lt _ (by decide)
  have hy : y % 32 < 32 := Nat.mod_lt _ (by decide)
  rw [f.pixel?_of_lt hx hy, f.pixel_congr (Nat.mod_mod x 64) (Nat.mod_mod y 32)]

theorem pixel?_eq_some_true_iff :
    f.pixel? x y = some true ↔ x < 64 ∧ y < 32 ∧ f.pixel x y = true := by
  rw [pixel?, ← and_assoc]
  split
  · rename_i inside
    exact ⟨fun h => ⟨inside, Option.some.inj h⟩, fun h => congrArg some h.2⟩
  · rename_i outside
    exact ⟨nofun, fun h => absurd h.1 outside⟩

/-- **A pixel is a bit of a byte**, the highest bit being the leftmost pixel. -/
theorem pixel_eq_testBit (x y : ℕ) :
    f.pixel x y = (f.bytes.get (slot x y)).toNat.testBit (7 - x % 8) := by
  have column : mask x = mask (x % 8) := by rw [mask, mask, Nat.mod_mod]
  rw [pixel, column, Sprite.and_mask_ne_zero_iff _ (Nat.mod_lt _ (by decide))]
  rfl

theorem getElem?_bytes (hx : x < 64) (hy : y < 32) :
    f.bytes[8 * y + x / 8]? = some (f.bytes.get (slot x y)) := by
  have place : 8 * y + x / 8 = (slot x y).val := by
    simp only [slot]
    omega
  rw [place]
  exact Vector.getElem?_eq_getElem (slot x y).isLt

theorem getElem?_bits (bytes : List UInt8) (i : ℕ) :
    (bits bytes)[i]? = bytes[i / 8]?.map fun b => b.toNat.testBit (7 - i % 8) := by
  induction bytes generalizing i with
  | nil => rfl
  | cons b bytes ih =>
    have first : bits (b :: bytes) =
        ((List.range 8).map fun i => b.toNat.testBit (7 - i)) ++ bits bytes := rfl
    rw [first]
    by_cases less : i < 8
    · have zero : i / 8 = 0 := Nat.div_eq_of_lt less
      rw [List.getElem?_append_left (by simpa using less), zero, Nat.mod_eq_of_lt less]
      simp [less]
    · -- The bit lies in a later byte.
      have next : i / 8 = (i - 8) / 8 + 1 := by omega
      have same : (i - 8) % 8 = i % 8 := by omega
      rw [List.getElem?_append_right (by simpa using less), next, List.getElem?_cons_succ, ← same]
      simpa using ih (i - 8)

/-- **A row is made of the bits of eight bytes.** -/
theorem rows_eq_bits :
    f.rows = (List.range 32).map fun y => bits ((f.bytes.toList.drop (8 * y)).take 8) := by
  refine List.map_congr_left fun y hy => List.ext_getElem? fun x => ?_
  have row : y < 32 := List.mem_range.1 hy
  rw [getElem?_bits, List.getElem?_take, List.getElem?_drop, List.getElem?_map]
  by_cases less : x < 64
  · have byte : x / 8 < 8 := by omega
    have read : f.bytes.toList[8 * y + x / 8]? = f.bytes[8 * y + x / 8]? := by simp
    have column : (List.range width)[x]? = some x := List.getElem?_range less
    rw [if_pos byte, read, f.getElem?_bytes less row, column]
    exact congrArg some (f.pixel_eq_testBit x y)
  · have beyond : ¬ x / 8 < 8 := by omega
    have none : (List.range width)[x]? = none :=
      List.getElem?_eq_none (by rw [List.length_range]; exact Nat.not_lt.1 less)
    rw [if_neg beyond, none]
    rfl

theorem getElem?_rows (x y : ℕ) : (f.rows[y]?.bind fun row => row[x]?) = f.pixel? x y := by
  by_cases hy : y < 32
  · by_cases hx : x < 64
    · simp [rows, pixel?, width, height, hx, hy]
    · simp [rows, pixel?, width, height, hx, hy]
  · simp [rows, pixel?, width, height, hy]

/-! ### Lit pixels -/

theorem mem_lit_iff : (x, y) ∈ f.lit ↔ x < 64 ∧ y < 32 ∧ f.pixel x y = true :=
  f.pixel?_eq_some_true_iff

theorem mem_lit_mod (x y : ℕ) : (x % 64, y % 32) ∈ f.lit ↔ f.pixel x y = true := by
  show f.pixel? (x % 64) (y % 32) = some true ↔ _
  rw [pixel?_mod, Option.some.injEq]

/-- The lit pixels lie on the grid. -/
theorem coe_filter_eq_lit :
    ((Finset.range 64 ×ˢ Finset.range 32).filter fun p => f.pixel p.1 p.2 = true : Set (ℕ × ℕ)) =
      f.lit := by
  ext ⟨x, y⟩
  rw [mem_lit_iff, Finset.mem_coe, Finset.mem_filter, Finset.mem_product, Finset.mem_range,
    Finset.mem_range, and_assoc]

theorem finite_lit : f.lit.Finite :=
  f.coe_filter_eq_lit ▸ Finset.finite_toSet _

theorem bits_append (bytes bytes' : List UInt8) :
    bits (bytes ++ bytes') = bits bytes ++ bits bytes' :=
  List.flatMap_append

theorem bits_chunks (bytes : List UInt8) (n : ℕ) :
    (List.range n).flatMap (fun y => bits ((bytes.drop (8 * y)).take 8)) =
      bits (bytes.take (8 * n)) := by
  induction n with
  | zero => rfl
  | succ n ih =>
    have split : bytes.take (8 * (n + 1)) = bytes.take (8 * n) ++ (bytes.drop (8 * n)).take 8 :=
      List.take_add
    rw [List.range_succ, List.flatMap_append, ih, split, bits_append, List.flatMap_singleton]

/-- The lit pixels are the bits that are set, be they counted row by row or all together. -/
theorem litCount_eq_count : f.litCount = (bits f.bytes.toList).count true := by
  have all : f.bytes.toList.take (8 * 32) = f.bytes.toList :=
    List.take_of_length_le (by simp)
  rw [litCount, rows_eq_bits, ← List.flatMap_def, bits_chunks, all]

theorem litCount_eq_ncard : f.litCount = f.lit.ncard := by
  have inRow (y : ℕ) : ((List.range 64).map fun x => f.pixel x y).count true =
      ((Finset.range 64).filter fun x => f.pixel x y = true).card := by
    rw [List.count, List.countP_map, List.countP_eq_length_filter]
    refine congrArg List.length (List.filter_congr fun x _ => ?_)
    simp
  rw [← coe_filter_eq_lit, Set.ncard_coe_finset, Finset.card_filter, Finset.sum_product_right]
  simp only [← Finset.card_filter, ← inRow]
  rw [litCount, List.count_flatten, rows, List.map_map]
  rfl

/-- A flip lights its pixel, or puts it out. -/
theorem lit_flip (x y : ℕ) :
    (f.flip x y).lit =
      if f.pixel x y = true then f.lit \ {(x % 64, y % 32)}
      else insert (x % 64, y % 32) f.lit := by
  ext ⟨z, w⟩
  by_cases same : (z, w) = (x % 64, y % 32)
  · -- The pixel itself.
    rw [same, mem_lit_mod, pixel_flip]
    split
    · rename_i bright
      simp [bright]
    · rename_i dim
      simp [dim]
  · have kept : (z, w) ∈ (f.flip x y).lit ↔ (z, w) ∈ f.lit := by
      rw [mem_lit_iff, mem_lit_iff]
      refine and_congr_right fun hz => and_congr_right fun hw => ?_
      have other : ¬ (x % 64 = z % 64 ∧ y % 32 = w % 32) := by
        rw [Prod.mk.injEq] at same
        omega
      rw [pixel_flip, decide_eq_false other, Bool.xor_false]
    rw [kept]
    split
    · rw [Set.mem_sdiff_singleton, and_iff_left same]
    · rw [Set.mem_insert_iff, or_iff_right same]

/-- **A flip changes the number of lit pixels by one.** -/
theorem litCount_toggle (x y : ℕ) :
    if (f.toggle x y).2 = true then (f.toggle x y).1.litCount + 1 = f.litCount
    else (f.toggle x y).1.litCount = f.litCount + 1 := by
  show if f.pixel x y = true then (f.flip x y).litCount + 1 = f.litCount
    else (f.flip x y).litCount = f.litCount + 1
  rw [litCount_eq_ncard, litCount_eq_ncard, lit_flip]
  by_cases bright : f.pixel x y = true
  · rw [if_pos bright, if_pos bright]
    exact Set.ncard_sdiff_singleton_add_one ((f.mem_lit_mod x y).2 bright) f.finite_lit
  · rw [if_neg bright, if_neg bright]
    exact Set.ncard_insert_of_notMem (mt (f.mem_lit_mod x y).1 bright) f.finite_lit

/-! ### The grid -/

theorem eq_iff_pixel? {g : Frame} : f = g ↔ ∀ x y, f.pixel? x y = g.pixel? x y := by
  refine ⟨fun same x y => same ▸ rfl, fun same => ext_pixel fun x y => ?_⟩
  have here := same (x % 64) (y % 32)
  rw [pixel?_mod, pixel?_mod] at here
  exact Option.some.inj here

/-- **The packed picture is a grid of 64 by 32 pixels.**  Whatever strokes it was drawn by,

* flipping a pixel tells whether it was lit before, at the place of the point on the grid;
* a pixel of the grid is lit exactly if it was flipped an odd number of times since the picture was
  cleared last, by points at its place when the edges wrap around, and there is no other pixel;
* the pixels are the bits of the bytes, the highest bit of a byte first, and eight bytes are a row;
* the lit pixels are counted, one more or one less after each flip;
* a picture is determined by its pixels;
* a copy stays as it was when it was taken. -/
theorem packed_refines_grid (strokes : List Stroke) :
    let f := (sketch strokes).frame
    (∀ x y, some (f.toggle x y).2 = f.pixel? (x % 64) (y % 32)) ∧
    (∀ x y, f.pixel? x y =
      if x < 64 ∧ y < 32 then some (decide (Odd (hits (flipped strokes) x y))) else none) ∧
    (∀ x < 64, ∀ y < 32,
      (f.bytes[8 * y + x / 8]?.map fun b => b.toNat.testBit (7 - x % 8)) = f.pixel? x y) ∧
    f.rows = (List.range 32).map (fun y => bits ((f.bytes.toList.drop (8 * y)).take 8)) ∧
    (∀ x y, (f.rows[y]?.bind fun row => row[x]?) = f.pixel? x y) ∧
    f.litCount = (bits f.bytes.toList).count true ∧
    f.litCount = {p : ℕ × ℕ | f.pixel? p.1 p.2 = some true}.ncard ∧
    (∀ x y, if (f.toggle x y).2 = true then (f.toggle x y).1.litCount + 1 = f.litCount
      else (f.toggle x y).1.litCount = f.litCount + 1) ∧
    (∀ g h : Frame, g = h ↔ ∀ x y, g.pixel? x y = h.pixel? x y) ∧
    (∀ before after, strokes = before ++ .copy :: after →
      (sketch strokes).copies[(sketch before).copies.length]? = some (sketch before).frame) := by
  intro f
  refine ⟨fun x y => (f.pixel?_mod x y).symm, fun x y => ?_, fun x hx y hy => ?_, f.rows_eq_bits,
    f.getElem?_rows, f.litCount_eq_count, f.litCount_eq_ncard, f.litCount_toggle,
    fun g h => g.eq_iff_pixel?, ?_⟩
  · rw [← pixel_sketch]
    rfl
  · rw [f.pixel?_of_lt hx hy, f.getElem?_bytes hx hy, pixel_eq_testBit]
    rfl
  · rintro before after rfl
    exact copies_sketch before after

end Frame

end Chip8
