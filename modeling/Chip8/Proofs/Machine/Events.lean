import Chip8.Proofs.Machine.Runs

/-!
# What a turn lets its surroundings see

The events of a turn come in three parts: those of the look at the keyboard, those of the
instructions that are fetched, one after the other, and those of its end.

* `Machine.events_tickTimers`, `Machine.tone_eq`, `Machine.events_presentFrame` : what is seen of
  the end of a frame.
* `Machine.events_turn` : the events of a turn, part by part.
* `Machine.filterMap_turn` : tone, picture, the end of the sound and a fault are only seen of the
  end of a turn.
-/

namespace Chip8

/-- Whether an event can only be seen of the end of a turn. -/
def Event.late : Event → Bool
  | .play .. | .silence | .present _ => true
  | .notice .soundFinished | .notice (.halted _) => true
  | _ => false

namespace Machine

/-- What is seen of the end of a turn, when its batch led to `a`. -/
def closing : Beat → Advance → List Event
  | .cycle _, a =>
    match a.failure with
    | some fault => .silence :: a.machine.presentFrame.events ++ [.notice (.halted fault)]
    | none =>
      let ticked := a.machine.tickTimers
      ticked.events ++ ticked.machine.tone :: ticked.machine.presentFrame.events
  | .step _, a =>
    match a.failure with
    | some fault => [.notice (.halted fault)]
    | none => []

variable {m : Machine}

theorem events_endTurn (b : Beat) (a : Advance) :
    (endTurn b a).events = a.events ++ closing b a := by
  cases b <;> cases failed : a.failure <;>
    simp [endTurn, endFrame, endStep, closing, failed, halt]

theorem closing_step (keys : KeySet) (a : Advance) :
    closing (.step keys) a = a.failure.toList.map fun fault => .notice (.halted fault) := by
  cases failed : a.failure <;> simp [closing, failed]

/-! ### The end of a frame -/

theorem events_presentFrame (m : Machine) :
    m.presentFrame.events = if m.stale then [.present m.frame] else [] := by
  unfold presentFrame
  split <;> rfl

/-- A tick tells that the sound is over when the sound timer stands at one. -/
theorem events_tickTimers (m : Machine) :
    m.tickTimers.events =
      if m.ticks = true ∧ m.sound.value = 1 then [.notice .soundFinished] else [] := by
  have ends : m.sound.outcome = .finished ↔ m.sound.value = 1 := by
    unfold Timer.outcome
    split
    · rename_i still
      rw [still]
      decide
    · split <;> simp_all
  unfold tickTimers
  cases ticks : m.ticks with
  | false => rfl
  | true => simp only [if_true, ends, true_and]

theorem tone_eq (m : Machine) :
    m.tone =
      if 0 < m.sound.value then .play m.tuning.gain m.tuning.frequency else .silence := by
  have active : m.sound.active = true ↔ 0 < m.sound.value := by
    rw [Timer.active, bne_iff_ne, UInt8.pos_iff_ne_zero]
  simp only [tone, active]

/-! ### The whole turn -/

theorem events_batched (n : Nat) (m : Machine) :
    (batched n m).events = (fetches n m).flatMap fun k => k.executeNext.events := by
  induction n generalizing m with
  | zero => rfl
  | succ n ih =>
    rcases m.running_or_waiting with mode | ⟨x, mode⟩
    · cases failed : m.executeNext.failure with
      | some f =>
        simp [fetches, mode, failed, batched_succ_of_failure mode failed]
      | none =>
        simp [fetches, mode, failed, batched_succ_of_ok mode failed, ih]
    · simp [fetches, mode, batched_of_waiting mode]

/-- **The events of a turn, part by part.** -/
theorem events_turn (alive : m.fault = none) (b : Beat) :
    (m.turn b).events =
      (m.latchKeys b.keys).events ++ (m.fetched b).flatMap (fun k => k.executeNext.events) ++
        closing b (latchedBatch (m.quota b) m b.keys) := by
  rw [turn_of_alive alive, events_endTurn]
  simp only [latchedBatch, fetched, alive, events_batched]

/-! ### The parts before the end -/

theorem late_latchKeys {keys : KeySet} {e : Event} (h : e ∈ (m.latchKeys keys).events) :
    e.late = false := by
  rcases latchKeys_cases m keys with ⟨kept, -⟩ | ⟨x, key, rest, -, -, answered⟩
  · rw [kept] at h
    obtain rfl := List.mem_singleton.1 h
    rfl
  · rw [answered] at h
    rcases List.mem_cons.1 h with rfl | stored
    · rfl
    · obtain rfl := List.mem_singleton.1 stored
      rfl

theorem late_executeNext {e : Event} (h : e ∈ m.executeNext.events) : e.late = false := by
  rcases executeNext_cases m with
    ⟨f, said, failed, ⟨-, rfl, -⟩ | ⟨op, -, rfl, -⟩⟩ | ⟨op, effect, -, outcome, done⟩
  · rw [failed] at h
    cases h
  · rw [failed] at h
    obtain rfl := List.mem_singleton.1 h
    rfl
  · rw [done] at h
    rcases List.mem_cons.1 h with rfl | rest
    · rfl
    · cases outcome with
      | call | ret | ordinary => cases rest
      | wait | roll =>
        obtain rfl := List.mem_singleton.1 rest
        rfl

/-- What is neither seen of a look at the keyboard nor of an instruction is seen of the end. -/
theorem filterMap_turn {α : Type} {g : Event → Option α} (late : ∀ e, e.late = false → g e = none)
    (alive : m.fault = none) (b : Beat) :
    (m.turn b).events.filterMap g =
      (closing b (latchedBatch (m.quota b) m b.keys)).filterMap g := by
  have looked : (m.latchKeys b.keys).events.filterMap g = [] :=
    List.filterMap_eq_nil_iff.2 fun e h => late e (late_latchKeys h)
  have executed : ((m.fetched b).flatMap fun k => k.executeNext.events).filterMap g = [] := by
    refine List.filterMap_eq_nil_iff.2 fun e h => ?_
    obtain ⟨k, -, h⟩ := List.mem_flatMap.1 h
    exact late e (late_executeNext h)
  rw [events_turn alive, List.filterMap_append, List.filterMap_append, looked, executed]
  rfl

theorem filter_turn {p : Event → Bool} (late : ∀ e, e.late = false → p e = false)
    (alive : m.fault = none) (b : Beat) :
    (m.turn b).events.filter p =
      (closing b (latchedBatch (m.quota b) m b.keys)).filter p := by
  have same := filterMap_turn (fun e h => Option.guard_eq_none_iff.2 (late e h)) alive b
  rwa [List.filterMap_eq_filter] at same

theorem countP_turn {p : Event → Bool} (late : ∀ e, e.late = false → p e = false)
    (alive : m.fault = none) (b : Beat) :
    (m.turn b).events.countP p =
      (closing b (latchedBatch (m.quota b) m b.keys)).countP p := by
  rw [List.countP_eq_length_filter, List.countP_eq_length_filter, filter_turn late alive b]

end Machine

end Chip8
