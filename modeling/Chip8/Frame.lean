/-!
# The picture

The picture has 64 columns and 32 rows and is packed into 256 bytes: eight bytes a row, the rows
from top to bottom, and within a byte the leftmost pixel in the highest bit.  `Frame.pixel` is the
view of it as a grid whose edges wrap around, and `Frame.toggle` flips one pixel of the grid.

A sprite is a list of rows of eight pixels; `Sprite.points` lists the points that it flips.

* `Frame.pixel_flip` : flipping a point changes that pixel of the wrapped grid and no other.
* `Frame.pixel_dark` : no pixel of the dark picture is lit.
-/

namespace Chip8

/-- A picture of 64 by 32 pixels. -/
structure Frame where
  /-- The packed rows. -/
  bytes : Vector UInt8 256
  deriving DecidableEq

namespace Frame

/-- Columns of the picture. -/
def width : Nat := 64

/-- Rows of the picture. -/
def height : Nat := 32

/-- The byte that holds a point. -/
def slot (x y : Nat) : Fin 256 :=
  ⟨y % 32 * 8 + x % 64 / 8, by omega⟩

/-- The byte with a single bit, the one of column `x`. -/
def mask (x : Nat) : UInt8 :=
  0x80 >>> UInt8.ofNat (x % 8)

/-- The dark picture. -/
def dark : Frame := ⟨Vector.replicate 256 0⟩

/-- Whether the pixel at a point is lit; the edges wrap around. -/
def pixel (f : Frame) (x y : Nat) : Bool :=
  f.bytes[slot x y] &&& mask x != 0

/-- Whether the pixel at a point of the grid is lit; outside of the grid there is none. -/
def pixel? (f : Frame) (x y : Nat) : Option Bool :=
  if x < width ∧ y < height then some (f.pixel x y) else none

/-- The picture with one pixel flipped; the edges wrap around. -/
def flip (f : Frame) (x y : Nat) : Frame :=
  ⟨f.bytes.set (slot x y).val (f.bytes[slot x y] ^^^ mask x) (slot x y).isLt⟩

/-- Flip a pixel; the flag says whether it was lit before. -/
def toggle (f : Frame) (x y : Nat) : Frame × Bool :=
  (f.flip x y, f.pixel x y)

/-- Flip pixels one after the other; the flag says whether one of them was lit when its turn
came. -/
def toggleAll (f : Frame) (points : List (Nat × Nat)) : Frame × Bool :=
  points.foldl (fun (f, hit) (x, y) =>
    let lit := f.pixel x y
    (f.flip x y, lit || hit)) (f, false)

/-- The rows of the picture, top to bottom, each from left to right. -/
def rows (f : Frame) : List (List Bool) :=
  (List.range height).map fun y => (List.range width).map fun x => f.pixel x y

/-- The number of lit pixels. -/
def litCount (f : Frame) : Nat := f.rows.flatten.count true

/-! ### The packed picture as a grid -/

theorem mask_and (x z : Nat) : mask x &&& mask z = if x % 8 = z % 8 then mask x else 0 := by
  have hx : x % 8 < 8 := Nat.mod_lt _ (by decide)
  have hz : z % 8 < 8 := Nat.mod_lt _ (by decide)
  unfold mask
  generalize x % 8 = k at hx
  generalize z % 8 = l at hz
  revert k l
  decide

theorem and_xor_mask (b : UInt8) (x z : Nat) :
    (b ^^^ mask x) &&& mask z = (b &&& mask z) ^^^ (mask x &&& mask z) := by
  apply UInt8.toBitVec_inj.mp
  ext i hi
  simp [Bool.and_xor_distrib_right]

theorem xor_mask_ne_zero (b : UInt8) (x : Nat) :
    ((b &&& mask x) ^^^ mask x != 0) = !(b &&& mask x != 0) := by
  have hx : x % 8 < 8 := Nat.mod_lt _ (by decide)
  unfold mask
  generalize x % 8 = k at hx
  have all : ∀ n < 256, ∀ k < 8,
      ((UInt8.ofNat n &&& 0x80 >>> UInt8.ofNat k) ^^^ 0x80 >>> UInt8.ofNat k != 0) =
        !(UInt8.ofNat n &&& 0x80 >>> UInt8.ofNat k != 0) := by
    decide +kernel
  simpa using all b.toNat b.toNat_lt k hx

/-- Points share a bit exactly if they are the same point of the wrapped grid. -/
theorem slot_eq_and_mod_iff (x y z w : Nat) :
    slot x y = slot z w ∧ x % 8 = z % 8 ↔ x % 64 = z % 64 ∧ y % 32 = w % 32 := by
  simp only [slot, Fin.mk.injEq]
  omega

theorem pixel_flip (f : Frame) (x y z w : Nat) :
    (f.flip x y).pixel z w =
      (f.pixel z w ^^ decide (x % 64 = z % 64 ∧ y % 32 = w % 32)) := by
  simp only [← slot_eq_and_mod_iff]
  unfold pixel flip
  simp only [Fin.getElem_fin, Vector.getElem_set]
  by_cases hs : slot x y = slot z w
  · simp only [hs, true_and, if_true, and_xor_mask, mask_and]
    by_cases hm : x % 8 = z % 8
    · have same : mask x = mask z := by unfold mask; rw [hm]
      simp [hm, same, xor_mask_ne_zero]
    · simp [hm]
  · have other : (slot x y).val ≠ (slot z w).val := fun h => hs (Fin.ext h)
    simp [hs, other]

theorem pixel_dark (x y : Nat) : dark.pixel x y = false := by
  simp [pixel, dark]

end Frame

namespace Sprite

/-- The columns of a row byte that are set, from left to right. -/
def columns (row : UInt8) : List Nat :=
  (List.range 8).filter fun k => row &&& Frame.mask k != 0

/-- The points that a sprite flips when its upper left corner is at `(x, y)`. -/
def points (x y : Nat) (sprite : List UInt8) : List (Nat × Nat) :=
  sprite.zipIdx.flatMap fun (row, r) => (columns row).map fun k => (x + k, y + r)

end Sprite

end Chip8
