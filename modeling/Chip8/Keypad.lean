import Chip8.Digit

/-!
# The keypad

Sixteen keys, named by the hexadecimal digits.  Besides the keys that are down the keypad keeps the
keys that went down and have not been taken yet, the fresh keys: only a key that goes down, and not
one that is held, can answer a wait for a key.

* `KeySet.has_put`, `KeySet.has_union`, `KeySet.has_diff` : the members of a set after an operation.
* `KeySet.ext_has` : a set is determined by its members.
* `KeySet.least?_eq_some_iff` : the least member is a member with no member below it.
* `Keypad.latch_down` : a snapshot seen a second time adds no fresh key.
-/

namespace Chip8

/-- One of the sixteen keys. -/
abbrev Key := Digit

/-- The key named by the low half of a byte. -/
def Key.ofByte (b : UInt8) : Key := Fin.ofNat 16 b.toNat

/-- A set of keys. -/
structure KeySet where
  /-- Bit `k` is set for a member `k`. -/
  bits : BitVec 16
  deriving DecidableEq

namespace KeySet

/-- No key at all. -/
def empty : KeySet := ⟨0#16⟩

/-- Whether a key is in the set. -/
def has (s : KeySet) (k : Key) : Bool := s.bits.getLsb k

/-- The set of one key. -/
def single (k : Key) : KeySet := ⟨1#16 <<< k.val⟩

/-- The keys of either set. -/
def union (s t : KeySet) : KeySet := ⟨s.bits ||| t.bits⟩

/-- The keys of the first set that are not in the second. -/
def diff (s t : KeySet) : KeySet := ⟨s.bits &&& ~~~t.bits⟩

/-- The set with a key put in or taken out. -/
def put (s : KeySet) (k : Key) (inside : Bool) : KeySet :=
  if inside then s.union (single k) else s.diff (single k)

/-- The members in ascending order. -/
def toList (s : KeySet) : List Key := (List.finRange 16).filter s.has

/-- The set of the listed keys. -/
def ofList (ks : List Key) : KeySet := ks.foldl (fun s k => s.put k true) empty

/-- The least member. -/
def least? (s : KeySet) : Option Key := (List.finRange 16).find? s.has

/-! ### Members -/

theorem ext_has {s t : KeySet} (h : ∀ k, s.has k = t.has k) : s = t := by
  cases s
  cases t
  congr
  apply BitVec.eq_of_getLsbD_eq
  intro i hi
  exact h ⟨i, hi⟩

theorem has_empty (k : Key) : empty.has k = false := by
  simp [has, empty]

theorem has_single (j k : Key) : (single j).has k = (j == k) := by
  revert j k
  decide

theorem has_union (s t : KeySet) (k : Key) : (s.union t).has k = (s.has k || t.has k) := by
  simp [has, union]

theorem has_diff (s t : KeySet) (k : Key) : (s.diff t).has k = (s.has k && !t.has k) := by
  simp [has, diff]

theorem has_put (s : KeySet) (j k : Key) (inside : Bool) :
    (s.put j inside).has k = if j = k then inside else s.has k := by
  cases inside <;> by_cases h : j = k <;> simp [put, has_union, has_diff, has_single, h]

theorem eq_empty_iff {s : KeySet} : s = empty ↔ ∀ k, s.has k = false := by
  constructor
  · rintro rfl k
    exact has_empty k
  · intro h
    exact ext_has fun k => (h k).trans (has_empty k).symm

theorem union_empty (s : KeySet) : s.union empty = s :=
  ext_has fun k => by simp [has_union, has_empty]

theorem empty_union (s : KeySet) : empty.union s = s :=
  ext_has fun k => by simp [has_union, has_empty]

theorem diff_eq_empty_iff {s t : KeySet} :
    s.diff t = empty ↔ ∀ k, s.has k = true → t.has k = true := by
  simp [eq_empty_iff, has_diff]

theorem diff_self (s : KeySet) : s.diff s = empty :=
  diff_eq_empty_iff.2 fun _ h => h

/-! ### The least member -/

theorem least?_eq_none_iff {s : KeySet} : s.least? = none ↔ s = empty := by
  simp [least?, eq_empty_iff]

theorem least?_eq_some_iff {s : KeySet} {k : Key} :
    s.least? = some k ↔ s.has k = true ∧ ∀ j < k, s.has j = false := by
  simp only [least?, List.find?_eq_some_iff_getElem, List.getElem_finRange]
  refine and_congr_right fun _ => ⟨?_, fun h => ?_⟩
  · rintro ⟨i, hi, rfl, below⟩ j hj
    simpa using below j.val hj
  · refine ⟨k.val, by simp, rfl, fun j hj => ?_⟩
    simpa using h ⟨j, by omega⟩ hj

end KeySet

/-- The keys as a machine last saw them. -/
structure Keypad where
  /-- The keys that are down. -/
  down : KeySet
  /-- The keys that went down and have not been taken. -/
  fresh : KeySet
  deriving DecidableEq

namespace Keypad

/-- No key down, no key fresh. -/
def idle : Keypad := ⟨.empty, .empty⟩

/-- Whether the key named by the low half of a byte is down. -/
def isDown (p : Keypad) (b : UInt8) : Bool := p.down.has (.ofByte b)

/-- Press or release one key; a key that goes down becomes fresh. -/
def set (p : Keypad) (b : UInt8) (pressed : Bool) : Keypad :=
  let k := Key.ofByte b
  { down := p.down.put k pressed
    fresh := if pressed && !p.down.has k then p.fresh.put k true else p.fresh }

/-- Replace the keys that are down; those that go down become fresh. -/
def latch (p : Keypad) (snapshot : KeySet) : Keypad :=
  { down := snapshot, fresh := p.fresh.union (snapshot.diff p.down) }

/-- Take the least fresh key, if there is one. -/
def take (p : Keypad) : Option (Key × Keypad) :=
  p.fresh.least?.map fun k => (k, { p with fresh := p.fresh.put k false })

/-- Forget the fresh keys. -/
def forget (p : Keypad) : Keypad := { p with fresh := .empty }

/-! ### Snapshots -/

/-- Latching the snapshot that is down already changes nothing. -/
theorem latch_down (p : Keypad) : p.latch p.down = p := by
  simp only [latch, KeySet.diff_self, KeySet.union_empty]

theorem take_eq_none_iff {p : Keypad} : p.take = none ↔ p.fresh = .empty := by
  simp [take, KeySet.least?_eq_none_iff]

end Keypad

end Chip8
