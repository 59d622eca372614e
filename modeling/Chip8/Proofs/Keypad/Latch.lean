import Chip8.Keypad

/-!
# Snapshots key by key

Latching a snapshot is setting each key to what the snapshot says, one after the other and in any
order (`Keypad.foldl_setKey`).
-/

namespace Chip8

namespace Keypad

/-- Set one key to what a snapshot says. -/
def setKey (snapshot : KeySet) (p : Keypad) (k : Key) : Keypad :=
  p.set (UInt8.ofNat k.val) (snapshot.has k)

theorem ofByte_ofNat (k : Key) : Key.ofByte (UInt8.ofNat k.val) = k := by
  revert k
  decide

variable {snapshot : KeySet}

theorem down_setKey (p : Keypad) (j k : Key) :
    (p.setKey snapshot j).down.has k = if j = k then snapshot.has k else p.down.has k := by
  simp only [setKey, set, ofByte_ofNat, KeySet.has_put]
  split
  · rename_i same
    rw [same]
  · rfl

theorem fresh_setKey (p : Keypad) (j k : Key) :
    (p.setKey snapshot j).fresh.has k =
      (p.fresh.has k || (j == k && snapshot.has k && !p.down.has k)) := by
  simp only [setKey, set, ofByte_ofNat]
  by_cases same : j = k
  · subst same
    cases snapshot.has j <;> cases p.down.has j <;> simp [KeySet.has_put]
  · split <;> simp [KeySet.has_put, same]

/-- Which keys are down and which are fresh when some keys have been set. -/
theorem foldl_setKey_has (ks : List Key) (p : Keypad) (k : Key) :
    (ks.foldl (setKey snapshot) p).down.has k =
        (if ks.contains k then snapshot.has k else p.down.has k) ∧
      (ks.foldl (setKey snapshot) p).fresh.has k =
        (p.fresh.has k || (ks.contains k && snapshot.has k && !p.down.has k)) := by
  induction ks generalizing p with
  | nil => simp
  | cons j ks ih =>
    obtain ⟨down, fresh⟩ := ih (p.setKey snapshot j)
    simp only [List.foldl_cons, down, fresh, down_setKey, fresh_setKey, List.contains_cons]
    by_cases same : j = k
    · subst same
      cases snapshot.has j <;> simp
    · have differ : (j == k) = false := beq_false_of_ne same
      have differ' : (k == j) = false := beq_false_of_ne (Ne.symm same)
      simp [same, differ, differ']

/-- **Latching a snapshot is setting every key to what it says**, in whatever order. -/
theorem foldl_setKey (p : Keypad) {ks : List Key} (every : ∀ k, k ∈ ks) :
    ks.foldl (setKey snapshot) p = p.latch snapshot := by
  have set (k : Key) : ks.contains k = true := List.contains_iff_mem.2 (every k)
  have down : (ks.foldl (setKey snapshot) p).down = snapshot :=
    KeySet.ext_has fun k => by rw [(foldl_setKey_has ks p k).1, if_pos (set k)]
  have fresh : (ks.foldl (setKey snapshot) p).fresh = p.fresh.union (snapshot.diff p.down) :=
    KeySet.ext_has fun k => by
      rw [(foldl_setKey_has ks p k).2, KeySet.has_union, KeySet.has_diff, set k, Bool.true_and]
  simp only [latch, ← fresh]
  exact congrArg (Keypad.mk · _) down

end Keypad

end Chip8
