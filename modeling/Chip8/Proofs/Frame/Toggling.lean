import Mathlib.Algebra.BigOperators.Group.Finset.Piecewise
import Mathlib.Algebra.BigOperators.Group.Finset.Sigma
import Mathlib.Data.Nat.Bitwise
import Chip8.Frame

/-!
# Flipping many points

Points may be flipped in a row, some of them more than once, and points that lie apart by a whole
width or height are one pixel.  What becomes of a pixel depends only on how often it is hit.

* `Frame.pixel_toggleAll` : a pixel changes exactly if it is hit an odd number of times.
* `Frame.toggleAll_lit_iff` : a lit pixel is met exactly if some pixel is hit twice, or hit and lit
  before.
* `Sprite.hits_points` : how often the points of a sprite hit a pixel, counted by rows and columns.
* `Frame.ext_pixel` : a picture is determined by its pixels.
* `Frame.toggleAll_perm`, `Frame.toggleAll_append_of_perm` : the order of the points makes no
  difference to the picture, and flipping them a second time restores it.
-/

namespace Chip8

namespace Frame

/-- How many of the points hit a pixel. -/
def hits (points : List (Nat × Nat)) (x y : Nat) : Nat :=
  points.countP fun p => p.1 % 64 = x % 64 ∧ p.2 % 32 = y % 32

variable (f : Frame) {points : List (Nat × Nat)} {x y : Nat}

/-! ### One pixel of the wrapped grid -/

theorem pixel_congr {z w : Nat} (hx : x % 64 = z % 64) (hy : y % 32 = w % 32) :
    f.pixel x y = f.pixel z w := by
  have place : slot x y = slot z w ∧ x % 8 = z % 8 := (slot_eq_and_mod_iff x y z w).2 ⟨hx, hy⟩
  simp only [pixel, mask, place]

theorem hits_mod (points : List (Nat × Nat)) (x y : Nat) :
    hits points (x % 64) (y % 32) = hits points x y := by
  simp only [hits, Nat.mod_mod]

theorem hits_cons (p : Nat × Nat) :
    hits (p :: points) x y =
      hits points x y + if p.1 % 64 = x % 64 ∧ p.2 % 32 = y % 32 then 1 else 0 := by
  simp only [hits, List.countP_cons, decide_eq_true_eq]

/-! ### One point after the other -/

theorem toggleAll_cons (p : Nat × Nat) (points : List (Nat × Nat)) :
    f.toggleAll (p :: points) =
      (((f.flip p.1 p.2).toggleAll points).1,
        f.pixel p.1 p.2 || ((f.flip p.1 p.2).toggleAll points).2) := by
  -- That the first point met a lit pixel is only carried along.
  let carry (drawn : Frame × Bool) : Frame × Bool := (drawn.1, f.pixel p.1 p.2 || drawn.2)
  have first : f.toggleAll [p] = carry (f.flip p.1 p.2, false) := rfl
  rw [toggleAll, List.foldl_cons]
  show points.foldl _ (f.toggleAll [p]) = carry ((f.flip p.1 p.2).toggleAll points)
  rw [first]
  exact List.foldl_hom carry fun drawn q => Prod.ext rfl (Bool.or_left_comm ..)

/-- **A pixel changes exactly if it is hit an odd number of times.** -/
theorem pixel_toggleAll (points : List (Nat × Nat)) (x y : Nat) :
    (f.toggleAll points).1.pixel x y = (f.pixel x y ^^ decide (Odd (hits points x y))) := by
  induction points generalizing f with
  | nil => simp [toggleAll, hits]
  | cons p points ih =>
    rw [toggleAll_cons, ih, pixel_flip, hits_cons]
    by_cases same : p.1 % 64 = x % 64 ∧ p.2 % 32 = y % 32
    · have next : decide (Odd (hits points x y + 1)) = !decide (Odd (hits points x y)) := by
        rw [decide_eq_decide.2 Nat.odd_add_one, decide_not]
      rw [if_pos same, next, decide_eq_true same, Bool.xor_true, Bool.xor_not, Bool.not_xor]
    · simp [same]

/-- **A lit pixel is met exactly if some pixel is hit twice, or hit and lit before.** -/
theorem toggleAll_lit_iff (points : List (Nat × Nat)) :
    (f.toggleAll points).2 = true ↔
      ∃ x y, 2 ≤ hits points x y ∨ 1 ≤ hits points x y ∧ f.pixel x y = true := by
  induction points generalizing f with
  | nil => simp [toggleAll, hits]
  | cons p points ih =>
    rw [toggleAll_cons, Bool.or_eq_true, ih]
    simp only [hits_cons, pixel_flip]
    constructor
    · rintro (lit | ⟨x, y, struck⟩)
      · refine ⟨p.1, p.2, .inr ⟨?_, lit⟩⟩
        simp
      · refine ⟨x, y, ?_⟩
        by_cases same : p.1 % 64 = x % 64 ∧ p.2 % 32 = y % 32
        · -- The first point hits the pixel too, so it is hit twice.
          simp only [same, and_self, if_true] at struck ⊢
          omega
        · simpa [same] using struck
    · rintro ⟨x, y, struck⟩
      by_cases same : p.1 % 64 = x % 64 ∧ p.2 % 32 = y % 32
      · -- The first point meets the pixel lit, or lights it for the next point that hits it.
        rw [f.pixel_congr same.1 same.2]
        cases lit : f.pixel x y with
        | true => exact .inl rfl
        | false =>
          refine .inr ⟨x, y, .inr ⟨?_, ?_⟩⟩
          · simp [same, lit] at struck
            omega
          · simp [same, lit]
      · refine .inr ⟨x, y, ?_⟩
        simpa [same] using struck

end Frame

namespace Sprite

open Chip8.Frame (hits)

/-- The points of rows that are numbered from zero. -/
theorem points_map_range (x y : Nat) (row : Nat → UInt8) (n : Nat) :
    points x y ((List.range n).map row) =
      (List.range n).flatMap fun r => (columns (row r)).map fun k => (x + k, y + r) := by
  have numbered : (List.range n).zipIdx = (List.range n).map fun r => (r, r) :=
    List.ext_getElem (by simp) (by simp)
  simp only [points, List.zipIdx_map, numbered, List.flatMap_map, List.map_map]
  rfl

/-- A column of a row is set if the bit is that counts from the left. -/
theorem and_mask_ne_zero_iff (row : UInt8) {k : Nat} (h : k < 8) :
    (row &&& Frame.mask k != 0) = row.toNat.testBit (7 - k) := by
  have single : ∀ k < 8, (Frame.mask k).toNat = 2 ^ (7 - k) := by decide
  have bit : (row &&& Frame.mask k).toNat = (row.toNat.testBit (7 - k)).toNat * 2 ^ (7 - k) := by
    rw [UInt8.toNat_and, single k h, Nat.and_two_pow]
  rw [Bool.eq_iff_iff, bne_iff_ne, ne_eq, ← UInt8.toNat_inj, bit]
  cases row.toNat.testBit (7 - k) <;> simp

/-- **How often the points of a sprite hit a pixel**: once for each row and column that lie on it
and whose bit is set. -/
theorem hits_points (x y : Nat) (row : Nat → UInt8) (n px py : Nat) :
    hits (points x y ((List.range n).map row)) px py =
      ((Finset.range n ×ˢ Finset.range 8).filter fun (r, k) =>
        (row r).toNat.testBit (7 - k) ∧ (x + k) % 64 = px % 64 ∧ (y + r) % 32 = py % 32).card := by
  have inRow (r : Nat) : hits ((columns (row r)).map fun k => (x + k, y + r)) px py =
      ((Finset.range 8).filter fun k => (row r).toNat.testBit (7 - k) ∧ (x + k) % 64 = px % 64 ∧
        (y + r) % 32 = py % 32).card := by
    rw [hits, List.countP_map, columns, List.countP_filter, List.countP_eq_length_filter]
    refine congrArg List.length (List.filter_congr fun k hk => ?_)
    simp [and_mask_ne_zero_iff (row r) (List.mem_range.1 hk), and_comm, Bool.and_assoc]
  rw [points_map_range, hits, List.countP_flatMap, Finset.card_filter, Finset.sum_product]
  simp only [← Finset.card_filter, ← inRow]
  rfl

end Sprite

namespace Frame

/-! ### Pictures and their pixels -/

/-- **A picture is determined by its pixels.** -/
theorem ext_pixel {f g : Frame} (h : ∀ x y, f.pixel x y = g.pixel x y) : f = g := by
  cases f with | mk a
  cases g with | mk b
  congr 1
  -- Byte `i` holds eight neighbours of row `i / 8`, and the leftmost is its highest bit.
  refine Vector.ext fun i hi => UInt8.toNat_inj.1 (Nat.eq_of_testBit_eq fun j => ?_)
  by_cases hj : j < 8
  · have place : slot (i % 8 * 8 + (7 - j)) (i / 8) = ⟨i, hi⟩ := by
      simp only [slot, Fin.mk.injEq]
      omega
    have column : mask (i % 8 * 8 + (7 - j)) = mask (7 - j) := by
      rw [mask, Nat.mul_add_mod']
      rfl
    have bit : 7 - (7 - j) = j := by omega
    have same := h (i % 8 * 8 + (7 - j)) (i / 8)
    simp only [pixel, place, column, Sprite.and_mask_ne_zero_iff _ (show 7 - j < 8 by omega),
      bit] at same
    exact same
  · have wide : 2 ^ 8 ≤ 2 ^ j := Nat.pow_le_pow_right Nat.two_pos (Nat.not_lt.1 hj)
    have high (c : UInt8) : c.toNat.testBit j = false :=
      Nat.testBit_eq_false_of_lt (Nat.lt_of_lt_of_le c.toNat_lt wide)
    rw [high, high]

/-! ### The order of the points -/

theorem hits_append (points points' : List (Nat × Nat)) (x y : Nat) :
    hits (points ++ points') x y = hits points x y + hits points' x y :=
  List.countP_append

theorem toggleAll_append (f : Frame) (points points' : List (Nat × Nat)) :
    (f.toggleAll (points ++ points')).1 = ((f.toggleAll points).1.toggleAll points').1 := by
  induction points generalizing f with
  | nil => rfl
  | cons p points ih => rw [List.cons_append, toggleAll_cons, toggleAll_cons, ih]

/-- **The order of the points makes no difference to the picture.** -/
theorem toggleAll_perm (f : Frame) {points points' : List (Nat × Nat)}
    (h : points.Perm points') : (f.toggleAll points).1 = (f.toggleAll points').1 := by
  refine ext_pixel fun x y => ?_
  rw [pixel_toggleAll, pixel_toggleAll, hits, h.countP_eq]
  rfl

/-- **Flipping points a second time, in whatever order, restores the picture.** -/
theorem toggleAll_append_of_perm (f : Frame) {points points' : List (Nat × Nat)}
    (h : points.Perm points') : (f.toggleAll (points ++ points')).1 = f := by
  refine ext_pixel fun x y => ?_
  have twice : ¬ Odd (hits (points ++ points') x y) := by
    rw [Nat.not_odd_iff_even, hits_append, hits, hits, h.countP_eq]
    exact Even.add_self _
  rw [pixel_toggleAll, decide_eq_false twice, Bool.xor_false]

end Frame

end Chip8
