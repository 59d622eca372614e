import Mathlib.Data.List.Chain
import Chip8.Proofs.Machine.Refinement
import Chip8.Proofs.Machine.WellFormed

/-!
# Waiting for a key

A machine that waits for a key does nothing else until a key goes down that was up when the
keyboard was looked at last.  Keys that are held, also those that are held since before the wait,
do not count, and neither do keys that are let go (`Machine.Reachable.waits_until_press`).

The reason is that a machine that waits has no fresh key left: an instruction that starts a wait
forgets the fresh keys, and a look at the keyboard that leaves one answers the wait.

* `Machine.turn_of_quiet` : a turn in which no key goes down leaves all but the keypad, the timers
  and the mark of a stale picture.
* `Machine.latchKeys_of_press` : the least of the keys that go down is the answer.
* `Machine.down_turn` : a turn leaves those keys down that it saw.
-/

namespace Chip8

/-- No key goes down from one look at the keyboard to the next. -/
def Quiet (seen keys : KeySet) : Prop := ∀ k, keys.has k = true → seen.has k = true

theorem diff_of_quiet {seen keys : KeySet} (h : Quiet seen keys) : keys.diff seen = .empty :=
  KeySet.diff_eq_empty_iff.2 h

namespace Machine

/-- A machine that waits, after a beat in which no key goes down.  A frame shows the picture and
lets the timers tick unless they pause. -/
def await (m : Machine) : Beat → Machine
  | .step keys => { m with keypad := ⟨keys, .empty⟩ }
  | .cycle keys =>
    { m with
      keypad := ⟨keys, .empty⟩
      delay := if m.tuning.timersWhileWaiting then m.delay.tick else m.delay
      sound := if m.tuning.timersWhileWaiting then m.sound.tick else m.sound
      stale := false }

/-- A machine whose wait is answered by a key, while `keys` are seen and `fresh` are left. -/
def answered (m : Machine) (x : Register) (key : Key) (keys fresh : KeySet) : Machine :=
  { m with keypad := ⟨keys, fresh⟩, mode := .running }.setReg x (UInt8.ofNat key.val)

variable {m : Machine} {x : Register} {seen keys : KeySet}

/-! ### While no key goes down -/

theorem latchKeys_of_quiet (waits : m.mode = .waiting x) (keypad : m.keypad = ⟨seen, .empty⟩)
    (quiet : Quiet seen keys) :
    m.latchKeys keys = ⟨{ m with keypad := ⟨keys, .empty⟩ }, [.poll]⟩ := by
  have latched : m.keypad.latch keys = ⟨keys, .empty⟩ := by
    rw [keypad, Keypad.latch, diff_of_quiet quiet, KeySet.union_empty]
  rw [← latched]
  exact latchKeys_of_take_none waits (Keypad.take_eq_none_iff.2 (latched ▸ rfl))

theorem turn_of_quiet {b : Beat} (alive : m.fault = none) (waits : m.mode = .waiting x)
    (keypad : m.keypad = ⟨seen, .empty⟩) (quiet : Quiet seen b.keys) :
    (m.turn b).machine = m.await b ∧ (m.turn b).status = .blocked ∧ m.fetched b = [] := by
  have looked := latchKeys_of_quiet waits keypad quiet
  have still (n : Nat) :
      latchedBatch n m b.keys = ⟨{ m with keypad := ⟨b.keys, .empty⟩ }, [.poll], none⟩ := by
    have stuck := batched_of_waiting (n := n) (m := { m with keypad := ⟨b.keys, .empty⟩ }) waits
    simp only [latchedBatch, looked, stuck, List.append_nil]
  have silent : m.fetched b = [] := by
    simp only [fetched, alive, looked]
    cases m.quota b <;> simp only [fetches, waits]
  rw [turn_of_alive alive, still]
  refine ⟨?_, ?_, silent⟩
  · cases b with
    | step keys => rfl
    | cycle keys =>
      simp only [endTurn]
      rw [machine_endFrame alive]
      simp [Advance.settled, await, ticks, alive, waits, Beat.keys]
  · cases b with
    | step keys => exact status_eq_blocked_iff.2 ⟨x, waits⟩
    | cycle keys =>
      exact (status_endFrame alive fun f failed => by cases failed).2.1.2 ⟨x, waits⟩

theorem fault_await (m : Machine) (b : Beat) : (m.await b).fault = m.fault := by
  cases b <;> rfl

theorem mode_await (m : Machine) (b : Beat) : (m.await b).mode = m.mode := by
  cases b <;> rfl

theorem keypad_await (m : Machine) (b : Beat) : (m.await b).keypad = ⟨b.keys, .empty⟩ := by
  cases b <;> rfl

theorem turns_of_quiet (alive : m.fault = none) (waits : m.mode = .waiting x)
    (keypad : m.keypad = ⟨seen, .empty⟩) {bs : List Beat}
    (quiet : List.IsChain Quiet (seen :: bs.map Beat.keys)) :
    (∀ t ∈ m.turns bs, t.status = .blocked) ∧ m.trail bs = [] ∧ m.after bs = bs.foldl await m := by
  induction bs generalizing m seen with
  | nil => exact ⟨nofun, rfl, rfl⟩
  | cons b bs ih =>
    obtain ⟨first, later⟩ := List.isChain_cons_cons.1 quiet
    obtain ⟨machine, status, silent⟩ := turn_of_quiet alive waits keypad first
    obtain ⟨blocked, nothing, rest⟩ := ih (m := m.await b) ((fault_await m b).trans alive)
      ((mode_await m b).trans waits) (keypad_await m b) later
    simp only [turns, trail, after, List.foldl_cons, silent, machine]
    exact ⟨List.forall_mem_cons.2 ⟨status, blocked⟩, nothing, rest⟩

/-- All but the keypad, the timers and the mark of a stale picture stays during a wait. -/
theorem foldl_await (keypad : m.keypad = ⟨seen, .empty⟩) (bs : List Beat) :
    let n := bs.foldl await m
    n = { m with
      keypad := ⟨(bs.map Beat.keys).getLastD seen, .empty⟩
      delay := n.delay, sound := n.sound, stale := n.stale } := by
  induction bs generalizing m seen with
  | nil =>
    simp only [List.foldl_nil, List.map_nil, List.getLastD_nil]
    rw [← keypad]
  | cons b bs ih =>
    have rest := ih (m := m.await b) (keypad_await m b)
    simp only [List.foldl_cons, List.map_cons, List.getLastD_cons] at rest ⊢
    refine rest.trans ?_
    cases b <;> rfl

/-! ### When a key goes down -/

/-- The least of the keys that go down answers a wait, the others stay fresh. -/
theorem latchKeys_of_press (waits : m.mode = .waiting x) (keypad : m.keypad = ⟨seen, .empty⟩)
    (press : ∃ k, seen.has k = false ∧ keys.has k = true) :
    ∃ key : Key, seen.has key = false ∧ keys.has key = true ∧
      (∀ k < key, seen.has k = true ∨ keys.has k = false) ∧
      m.latchKeys keys =
        ⟨m.answered x key keys ((keys.diff seen).put key false),
          [.poll, .notice (.keyStored key x)]⟩ := by
  have latched : m.keypad.latch keys = ⟨keys, keys.diff seen⟩ := by
    rw [keypad, Keypad.latch, KeySet.empty_union]
  cases least : (keys.diff seen).least? with
  | none =>
    obtain ⟨k, up, down⟩ := press
    have held := KeySet.diff_eq_empty_iff.1 (KeySet.least?_eq_none_iff.1 least) k down
    rw [up] at held
    cases held
  | some key =>
    obtain ⟨new, below⟩ := KeySet.least?_eq_some_iff.1 least
    have pressed : keys.has key = true ∧ seen.has key = false := by
      simpa [KeySet.has_diff] using new
    have taken : (m.keypad.latch keys).take =
        some (key, ⟨keys, (keys.diff seen).put key false⟩) := by
      simp only [latched, Keypad.take, least, Option.map_some]
    refine ⟨key, pressed.2, pressed.1, fun k lower => ?_, latchKeys_of_take_some waits taken⟩
    have old := below k lower
    rw [KeySet.has_diff] at old
    cases down : keys.has k with
    | false => exact .inr rfl
    | true => exact .inl (by simpa [down] using old)

theorem endTurn_seen (b : Beat) (m : Machine) (seen seen' : List Event) (f : Option Fault) :
    (endTurn b ⟨m, seen, f⟩).machine = (endTurn b ⟨m, seen', f⟩).machine ∧
      (endTurn b ⟨m, seen, f⟩).status = (endTurn b ⟨m, seen', f⟩).status := by
  cases b with
  | step keys => cases f <;> exact ⟨rfl, rfl⟩
  | cycle keys => cases f <;> exact ⟨rfl, rfl⟩

/-- Having looked at the keyboard makes no difference to a turn with the same keys, apart from what
is said. -/
theorem turn_latchKeys (alive : m.fault = none) (b : Beat) :
    (m.turn b).machine = ((m.latchKeys b.keys).machine.turn b).machine ∧
      (m.turn b).status = ((m.latchKeys b.keys).machine.turn b).status ∧
      m.fetched b = (m.latchKeys b.keys).machine.fetched b := by
  have idle := idle_latchKeys m b.keys
  have alive' := idle.fault.trans alive
  have again := (settled_latchKeys m b.keys).latchKeys
  have quota : (m.latchKeys b.keys).machine.quota b = m.quota b := by
    cases b with
    | step keys => rfl
    | cycle keys => exact congrArg Tuning.speed idle.tuning
  rw [turn_of_alive alive, turn_of_alive alive', quota]
  simp only [fetched, alive, alive', quota, latchedBatch, again]
  obtain ⟨machine, status⟩ := endTurn_seen b _ _ _ _
  exact ⟨machine, status, trivial⟩

/-- A beat that may execute an instruction first executes the one at the machine as it stands after
the look at the keyboard, if that machine runs. -/
theorem head_fetched {b : Beat} (alive : m.fault = none) (pos : 1 ≤ m.quota b)
    (running : (m.latchKeys b.keys).machine.mode = .running) :
    (m.fetched b).head? = some (m.latchKeys b.keys).machine := by
  obtain ⟨n, quota⟩ := Nat.exists_eq_add_of_le' pos
  simp only [fetched, alive, quota, fetches, running]
  split <;> rfl

/-- A turn leaves those keys down that it saw; so when it starts a wait, the keys of that turn are
held and do not answer it. -/
theorem down_turn (alive : m.fault = none) (b : Beat) :
    (m.turn b).machine.keypad.down = b.keys := by
  have left (n : Nat) : (latchedBatch n m b.keys).settled.keypad.down = b.keys := by
    have held := batched_invariant (I := Settled b.keys) (fun _ h _ => h.executeNext) n
      (settled_latchKeys m b.keys)
    cases failed : (latchedBatch n m b.keys).failure with
    | some f =>
      rw [Advance.settled_of_failure failed]
      exact held.down
    | none =>
      rw [Advance.settled_of_ok failed]
      exact held.down
  rw [turn_of_alive alive]
  cases b with
  | step keys =>
    simp only [endTurn, machine_endStep]
    exact left 1
  | cycle keys =>
    simp only [endTurn]
    rw [machine_endFrame ((fault_latchedBatch _ m _).trans alive)]
    exact left m.tuning.speed

/-! ### The whole wait -/

/-- **A machine that waits for a key does nothing until a key goes down.**  In the turns of a run in
which no key goes down from one look at the keyboard to the next, the machine executes nothing,
stays blocked, and keeps all but the keypad, which holds the keys seen last, the timers and the mark
of a stale picture.  In the first turn after it in which some key goes down, the least such key is
put into the register that waits, and no other register changes; then the machine runs, and the turn
goes on from there with its first instruction. -/
theorem Reachable.waits_until_press (reachable : Reachable m) (alive : m.fault = none)
    (waits : m.mode = .waiting x) (bs : List Beat)
    (quiet : List.IsChain Quiet (m.keypad.down :: bs.map Beat.keys)) :
    let n := m.after bs
    let seen := (bs.map Beat.keys).getLastD m.keypad.down
    ((∀ t ∈ m.turns bs, t.status = .blocked) ∧ m.trail bs = [] ∧ n = bs.foldl await m ∧
      n = { m with
        keypad := ⟨seen, .empty⟩
        delay := n.delay, sound := n.sound, stale := n.stale }) ∧
    ∀ b : Beat, (∃ k, seen.has k = false ∧ b.keys.has k = true) →
      ∃ key : Key, seen.has key = false ∧ b.keys.has key = true ∧
        (∀ k < key, seen.has k = true ∨ b.keys.has k = false) ∧
        let a := n.answered x key b.keys ((b.keys.diff seen).put key false)
        (n.latchKeys b.keys).machine = a ∧ a.mode = .running ∧
          (∀ y, a.reg y = if x = y then UInt8.ofNat key.val else m.reg y) ∧
          (1 ≤ n.quota b → (n.fetched b).head? = some a) ∧
          (n.turn b).machine = (a.turn b).machine ∧ (n.turn b).status = (a.turn b).status ∧
          n.fetched b = a.fetched b := by
  intro n seen
  -- No key is fresh during a wait, however the wait was entered.
  have keypad : m.keypad = ⟨m.keypad.down, .empty⟩ := by
    rw [← reachable.wellFormed.fresh x waits]
  obtain ⟨blocked, silent, steps⟩ := turns_of_quiet alive waits keypad quiet
  have kept : n = { m with
      keypad := ⟨seen, .empty⟩
      delay := n.delay, sound := n.sound, stale := n.stale } := by
    have left := foldl_await keypad bs
    rw [← steps] at left
    exact left
  refine ⟨⟨blocked, silent, steps, kept⟩, fun b press => ?_⟩
  have waits' : n.mode = .waiting x := by rw [kept, waits]
  have alive' : n.fault = none := by rw [kept, alive]
  have keypad' : n.keypad = ⟨seen, .empty⟩ := by rw [kept]
  have registers : n.v = m.v := by rw [kept]
  obtain ⟨key, up, down, least, looked⟩ := latchKeys_of_press waits' keypad' press
  have same := turn_latchKeys alive' b
  have head := head_fetched (b := b) alive'
  rw [looked] at same head
  refine ⟨key, up, down, least, congrArg Effect.machine looked, rfl, fun y => ?_,
    fun pos => head pos rfl, same⟩
  rw [answered, reg_setReg]
  simp only [reg, registers]

/-- The instruction at the start of memory starts a wait in a frame whose keys are seen to go down
just before.  Key 2, which is held, answers only when it was let go and goes down again, and it does
so before key 9. -/
theorem Reachable.waits_until_press_of_held :
    let start := ((((blank .standard (.ofFaces fun _ => 0)).act (.execute (.setByte 0 0xF3))).act
      (.execute (.setByte 1 0x0A))).act (.execute (.storeRegisters 1))).act (.execute (.jump 0))
    let m := start.act (.beat (.cycle (.single 2)))
    let bs := [Beat.step (.single 2), .cycle .empty]
    Reachable m ∧ m.fault = none ∧ m.mode = .waiting 3 ∧
      List.IsChain Quiet (m.keypad.down :: bs.map Beat.keys) ∧ m.trail bs = [] ∧
      ((m.after bs).latchKeys (.ofList [2, 9])).machine.reg 3 = 2 := by
  intro start m bs
  have reachable : Reachable m :=
    (((((Reachable.built (.blank _ _)).act _).act _).act _).act _).act _
  have alive : m.fault = none := by decide +kernel
  have waits : m.mode = .waiting 3 := by decide +kernel
  have down : m.keypad.down = .single 2 := by decide +kernel
  have quiet : List.IsChain Quiet (m.keypad.down :: bs.map Beat.keys) := by
    rw [down]
    refine .cons_cons (fun k h => h) (.cons_cons (fun k h => ?_) (.singleton _))
    rw [Beat.keys, KeySet.has_empty] at h
    cases h
  obtain ⟨⟨-, silent, -, -⟩, answer⟩ := reachable.waits_until_press alive waits bs quiet
  obtain ⟨key, -, pressed, least, looked, -, registers, -⟩ :=
    answer (.step (.ofList [2, 9])) ⟨2, KeySet.has_empty 2, by decide⟩
  have only : ∀ k : Key, (KeySet.ofList [2, 9]).has k = true →
      (∀ j < k, KeySet.empty.has j = true ∨ (KeySet.ofList [2, 9]).has j = false) → k = 2 := by
    decide +kernel
  obtain rfl := only key pressed least
  exact ⟨reachable, alive, waits, quiet, silent,
    (congrArg (reg · 3) looked).trans (registers 3)⟩

end Machine

end Chip8
