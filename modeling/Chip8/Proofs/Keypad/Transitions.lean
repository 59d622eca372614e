import Mathlib.Data.List.Induction
import Mathlib.Data.List.Infix
import Chip8.Proofs.Keypad.Latch
import Chip8.Proofs.Past

/-!
# The fresh keys are transitions

A keypad is used: keys are set one by one or all together, the least fresh key is taken, or the
fresh keys are forgotten.  The two sets that it keeps are determined by this past
(`Keypad.latch_refines_transitions`): a key is down if it was set to be down last, and it is fresh
if it went down and was neither forgotten nor taken since then.

* `Keypad.Pending` : what it means that a key went down and is still to be taken.
* `Keypad.fresh_use`, `Keypad.pending_concat` : one use changes the fresh keys, and the keys that
  are pending, in the same way.
* `Keypad.used_has` : so they are the same keys in the course of a past.
-/

namespace Chip8

namespace Keypad

/-- What can be done with a keypad. -/
inductive Use where
  /-- Press or release the key that the low half of a byte names. -/
  | set (b : UInt8) (pressed : Bool)
  /-- Set all keys. -/
  | latch (snapshot : KeySet)
  /-- Take the least fresh key. -/
  | take
  /-- Forget the fresh keys. -/
  | forget
  deriving DecidableEq

/-- What a use says about a key, if it says anything. -/
def Use.says? (k : Key) : Use → Option Bool
  | .set b pressed => if b.toNat % 16 = k.val then some pressed else none
  | .latch snapshot => some (snapshot.has k)
  | .take | .forget => none

/-- A keypad after it was used. -/
def use (p : Keypad) : Use → Keypad
  | .set b pressed => p.set b pressed
  | .latch snapshot => p.latch snapshot
  | .take => (p.take.map Prod.snd).getD p
  | .forget => p.forget

/-- A new keypad after it was used. -/
def used (past : List Use) : Keypad := past.foldl use idle

/-- The key that is taken if a key is taken now. -/
def answer (p : Keypad) : Option Key := p.take.map Prod.fst

/-- Whether a key was said to be down last; at first all keys are up. -/
def lastSaid (past : List Use) (k : Key) : Bool := (past.filterMap (Use.says? k)).getLastD false

/-- A key was up and went down, and since then it was neither forgotten nor taken. -/
def Pending (past : List Use) (k : Key) : Prop :=
  ∃ front u back, past = front ++ u :: back ∧
    (lastSaid front k = false ∧ u.says? k = some true) ∧
    .forget ∉ back ∧
    ∀ between, between ++ [.take] <+: back → (used (front ++ u :: between)).answer ≠ some k

variable {past : List Use} {u : Use} {k : Key}

/-! ### One use -/

theorem used_concat (past : List Use) (u : Use) : used (past ++ [u]) = (used past).use u :=
  List.foldl_concat ..

theorem lastSaid_concat (past : List Use) (u : Use) (k : Key) :
    lastSaid (past ++ [u]) k = (u.says? k).getD (lastSaid past k) := by
  unfold lastSaid
  rw [List.filterMap_append]
  cases said : u.says? k with
  | none =>
    rw [List.filterMap_cons_none said, List.filterMap_nil, List.append_nil]
    rfl
  | some pressed =>
    rw [List.filterMap_cons_some said, List.filterMap_nil]
    exact List.getLastD_concat

theorem ofByte_eq_iff {b : UInt8} : Key.ofByte b = k ↔ b.toNat % 16 = k.val :=
  Fin.ext_iff

theorem answer_eq (p : Keypad) : p.answer = p.fresh.least? := by
  cases least : p.fresh.least? <;> simp [answer, take, least]

theorem down_use (p : Keypad) (u : Use) (k : Key) :
    (p.use u).down.has k = (u.says? k).getD (p.down.has k) := by
  cases u with
  | set b pressed =>
    simp only [use, set, KeySet.has_put, Use.says?, ofByte_eq_iff]
    split <;> rfl
  | latch snapshot => rfl
  | take =>
    simp only [use, take]
    cases p.fresh.least? <;> rfl
  | forget => rfl

/-- What one use makes of the fresh keys. -/
theorem fresh_use (p : Keypad) (u : Use) (k : Key) :
    (p.use u).fresh.has k = true ↔
      (p.down.has k = false ∧ u.says? k = some true) ∨
        (p.fresh.has k = true ∧ u ≠ .forget ∧ (u = .take → p.answer ≠ some k)) := by
  cases u with
  | set b pressed =>
    simp only [use, set, Use.says?]
    by_cases same : Key.ofByte b = k
    · rw [if_pos (ofByte_eq_iff.1 same), same]
      cases pressed <;> cases down : p.down.has k <;> simp [KeySet.has_put]
    · rw [if_neg (mt ofByte_eq_iff.2 same)]
      split <;> simp [KeySet.has_put, same]
  | latch snapshot =>
    simp [use, latch, KeySet.has_union, KeySet.has_diff, Use.says?, or_comm, and_comm]
  | take =>
    rw [answer_eq]
    simp only [use, take, Use.says?]
    cases least : p.fresh.least? with
    | none => simp
    | some j => by_cases same : j = k <;> simp [KeySet.has_put, same]
  | forget => simp [use, forget, Use.says?, KeySet.has_empty]

/-! ### The past -/

/-- What one use makes of the pending keys. -/
theorem pending_concat :
    Pending (past ++ [u]) k ↔
      (lastSaid past k = false ∧ u.says? k = some true) ∨
        (Pending past k ∧ u ≠ .forget ∧ (u = .take → (used past).answer ≠ some k)) := by
  unfold Pending
  rw [Past.exists_split_concat]
  refine or_congr ?_ ?_
  · exact ⟨fun h => h.1, fun h => ⟨h, nofun, fun between within => by simp at within⟩⟩
  · constructor
    · rintro ⟨front, v, back, rfl, rise, kept, untaken⟩
      obtain ⟨last, untaken⟩ := Past.forall_prefix_concat.1 untaken
      rw [List.mem_append, List.mem_singleton, not_or] at kept
      exact ⟨⟨front, v, back, rfl, rise, kept.1, untaken⟩, Ne.symm kept.2, last⟩
    · rintro ⟨⟨front, v, back, rfl, rise, kept, untaken⟩, other, last⟩
      refine ⟨front, v, back, rfl, rise, ?_, Past.forall_prefix_concat.2 ⟨last, untaken⟩⟩
      rw [List.mem_append, List.mem_singleton, not_or]
      exact ⟨kept, Ne.symm other⟩

/-- The keys that are down were said to be down last, and the fresh keys are those that went down
and are still to be taken. -/
theorem used_has (past : List Use) (k : Key) :
    (used past).down.has k = lastSaid past k ∧
      ((used past).fresh.has k = true ↔ Pending past k) := by
  induction past using List.reverseRecOn with
  | nil =>
    refine ⟨KeySet.has_empty k, ⟨fun h => ?_, ?_⟩⟩
    · rw [used, List.foldl_nil, idle, KeySet.has_empty] at h
      cases h
    · rintro ⟨front, u, back, split, -⟩
      cases front <;> cases split
  | append_singleton past u ih =>
    obtain ⟨down, fresh⟩ := ih
    refine ⟨?_, ?_⟩
    · rw [used_concat, down_use, lastSaid_concat, down]
    · rw [used_concat, fresh_use, pending_concat, down, fresh]

theorem fresh_iff_pending (past : List Use) (k : Key) :
    (used past).fresh.has k = true ↔ Pending past k :=
  (used_has past k).2

/-! ### Single uses of any keypad -/

/-- Pressing a key that is held changes nothing. -/
theorem set_of_down {p : Keypad} {b : UInt8} (held : p.isDown b = true) : p.set b true = p := by
  have down : p.down.put (.ofByte b) true = p.down := by
    refine KeySet.ext_has fun k => ?_
    rw [KeySet.has_put]
    split
    · rename_i same
      rw [← same]
      exact held.symm
    · rfl
  have known : p.down.has (.ofByte b) = true := held
  simp only [set, down, known, Bool.not_true, Bool.and_false, Bool.false_eq_true, if_false]

/-- A snapshot that is latched a second time changes nothing. -/
theorem latch_latch (p : Keypad) (snapshot : KeySet) :
    (p.latch snapshot).latch snapshot = p.latch snapshot :=
  latch_down (p.latch snapshot)

/-- Latching a snapshot is setting all keys, in whatever order. -/
theorem foldl_use_set (p : Keypad) (snapshot : KeySet) {ks : List Key} (every : ∀ k, k ∈ ks) :
    (ks.map fun k => Use.set (UInt8.ofNat k.val) (snapshot.has k)).foldl use p =
      p.latch snapshot := by
  rw [List.foldl_map]
  exact foldl_setKey p every

/-! ### Taking the fresh keys -/

theorem take_eq_none_iff_pending :
    (used past).take = none ↔ ∀ k, ¬ Pending past k := by
  rw [take_eq_none_iff, KeySet.eq_empty_iff]
  exact forall_congr' fun k => by rw [← fresh_iff_pending, Bool.not_eq_true]

/-- What is taken is the least of the pending keys, and it alone is pending no more. -/
theorem pending_of_take {rest : Keypad} (taken : (used past).take = some (k, rest)) :
    Pending past k ∧ (∀ j < k, ¬ Pending past j) ∧ used (past ++ [.take]) = rest ∧
      ∀ j, Pending (past ++ [.take]) j ↔ Pending past j ∧ j ≠ k := by
  have answer : (used past).answer = some k := by rw [Keypad.answer, taken, Option.map_some]
  obtain ⟨fresh, below⟩ := KeySet.least?_eq_some_iff.1 (answer_eq _ ▸ answer)
  refine ⟨(fresh_iff_pending past k).1 fresh, fun j less pending => ?_, ?_, fun j => ?_⟩
  · rw [← fresh_iff_pending, below j less] at pending
    cases pending
  · rw [used_concat, use, taken, Option.map_some, Option.getD_some]
  · rw [pending_concat, answer]
    simp [Use.says?, @eq_comm _ k j]

/-- Only by taking it or by forgetting is a pending key lost. -/
theorem Pending.concat (pending : Pending past k) (taking : u ≠ .take) (forgetting : u ≠ .forget) :
    Pending (past ++ [u]) k :=
  pending_concat.2 (.inr ⟨pending, forgetting, fun same => absurd same taking⟩)

/-- **A keypad keeps the keys that are down and the keys that went down.**  However a new keypad
was used,

* a key, which sixteen bytes name, is down if it was set to be down last;
* the fresh keys are those that are pending: they were up and went down, and since then they were
  neither forgotten nor taken;
* nothing can be taken exactly if no key is pending, and what is taken is the least pending key,
  which alone is pending no more;
* pressing a key that is held changes nothing, and a pending key stays pending when keys are
  pressed and released;
* latching a snapshot is setting the sixteen keys, in any order, and doing it again changes
  nothing. -/
theorem latch_refines_transitions (past : List Use) :
    let p := used past
    (∀ (b : UInt8) (k : Key), b.toNat % 16 = k.val → p.isDown b = lastSaid past k) ∧
    (∀ k, p.fresh.has k = true ↔ Pending past k) ∧
    (p.take = none ↔ ∀ k, ¬ Pending past k) ∧
    (∀ k rest, p.take = some (k, rest) →
      Pending past k ∧ (∀ j < k, ¬ Pending past j) ∧ used (past ++ [.take]) = rest ∧
        ∀ j, Pending (past ++ [.take]) j ↔ Pending past j ∧ j ≠ k) ∧
    (∀ b, p.isDown b = true →
      p.set b true = p ∧ ∀ k, Pending (past ++ [.set b true]) k ↔ Pending past k) ∧
    (∀ u k, u ≠ .take → u ≠ .forget → Pending past k → Pending (past ++ [u]) k) ∧
    (∀ snapshot (ks : List Key), (∀ k, k ∈ ks) →
      used (past ++ ks.map fun k => .set (UInt8.ofNat k.val) (snapshot.has k)) =
        p.latch snapshot) ∧
    ∀ snapshot, (p.latch snapshot).latch snapshot = p.latch snapshot := by
  intro p
  refine ⟨fun b k named => ?_, fresh_iff_pending past, take_eq_none_iff_pending,
    fun k rest => pending_of_take, fun b held => ⟨set_of_down held, fun k => ?_⟩,
    fun u k taking forgetting pending => pending.concat taking forgetting,
    fun snapshot ks every => ?_, latch_latch p⟩
  · rw [isDown, ofByte_eq_iff.2 named, (used_has past k).1]
  · rw [← fresh_iff_pending, used_concat, use, set_of_down held, fresh_iff_pending]
  · rw [used, List.foldl_append]
    exact foldl_use_set p snapshot every

/-- Key 3 goes down, then key 5; the first is taken, let go and pressed again, so that both are
pending. -/
theorem latch_refines_transitions_of_pressed_again :
    let past := [Use.set 0x13 true, .latch (.ofList [3, 5]), .take, .set 3 false, .set 0xF3 true]
    let p := used past
    p.take = some (3, ⟨.ofList [3, 5], .single 5⟩) ∧
      Pending past 3 ∧ Pending past 5 ∧ (∀ j < 3, ¬ Pending past j) ∧
      ¬ Pending (past ++ [.take]) 3 ∧ Pending (past ++ [.take]) 5 ∧
      p.isDown 0x25 = lastSaid past 5 ∧ p.set 0x25 true = p ∧
      Pending (past ++ [.set 0x25 false]) 5 ∧
      used (past ++ (List.finRange 16).reverse.map fun k =>
        .set (UInt8.ofNat k.val) ((KeySet.single 7).has k)) = p.latch (.single 7) := by
  intro past p
  have taken : p.take = some (3, ⟨.ofList [3, 5], .single 5⟩) := by decide +kernel
  have held : p.isDown 0x25 = true := by decide +kernel
  obtain ⟨down, fresh, -, take, press, kept, latch, -⟩ := latch_refines_transitions past
  obtain ⟨three, below, -, left⟩ := take 3 _ taken
  have five : Pending past 5 := (fresh 5).1 (by decide +kernel)
  exact ⟨taken, three, five, below, fun h => ((left 3).1 h).2 rfl, (left 5).2 ⟨five, by decide⟩,
    down 0x25 5 (by decide), (press 0x25 held).1, kept (.set 0x25 false) 5 nofun nofun five,
    latch (.single 7) _ fun k => List.mem_reverse.2 (List.mem_finRange k)⟩

end Keypad

end Chip8
