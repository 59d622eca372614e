import Chip8.Proofs.Machine.Events
import Chip8.Proofs.Machine.WellFormed

/-!
# The history of a machine

What happens to a machine over its life, whatever is done to it: the instructions that are executed,
be it in a batch or because its owner wants so, and the events that its surroundings see.

* `Machine.history` : all that happens in the course of some acts, in order.
* `Machine.event?_history` : its events are those that are seen.
* `Machine.history_invariant` : what each act preserves, together with the past, a life preserves.
* `Machine.Tracks.latchedBatch`, `Machine.Tracks.act` : what an executed instruction preserves, and
  nothing else but the end of a turn touches, a turn preserves up to its end, and an act if the end
  does too.
-/

namespace Chip8

/-- Something that happens to a machine. -/
inductive Deed where
  /-- An instruction is executed on a machine, whose program counter points past it. -/
  | executed (on : Machine) (op : Instruction)
  | event (e : Event)

/-- The event that a deed is, if it is one. -/
def Deed.event? : Deed → Option Event
  | .event e => some e
  | .executed .. => none

namespace Machine

/-- What happens when the instruction at the program counter is executed; a word that is none
cannot be. -/
def nextDeeds (m : Machine) : List Deed :=
  (m.nextOp.map (.executed m.advance)).toList ++ m.executeNext.events.map .event

/-- What is seen of an act. -/
def said (m : Machine) : Act → List Event
  | .beat b => (m.turn b).events
  | .execute op =>
    match m.execute op with
    | .ok e => e.events
    | .error _ => []
  | .installFont => m.installFont.events
  | .install program =>
    match m.install program with
    | .ok e => e.events
    | .error _ => []

/-- What happens in an act. -/
def deeds (m : Machine) : Act → List Deed
  | .beat b =>
    match m.fault with
    | some _ => []
    | none =>
      (m.latchKeys b.keys).events.map .event ++ (m.fetched b).flatMap nextDeeds ++
        (closing b (latchedBatch (m.quota b) m b.keys)).map .event
  | .execute op => .executed m op :: (m.said (.execute op)).map .event
  | .installFont => (m.said .installFont).map .event
  | .install program => (m.said (.install program)).map .event

/-- What is seen of some acts. -/
def told (m : Machine) : List Act → List Event
  | [] => []
  | a :: acts => m.said a ++ (m.act a).told acts

/-- What happens in some acts. -/
def history (m : Machine) : List Act → List Deed
  | [] => []
  | a :: acts => m.deeds a ++ (m.act a).history acts

variable {m : Machine} {past : List Deed}

/-! ### Being built, and other acts than turns -/

theorem act_installFont (m : Machine) :
    m.act .installFont = { m with memory := m.memory.installFont } := rfl

/-- Putting a program into memory changes nothing else, whether it fits or not. -/
theorem act_install (m : Machine) (program : Array UInt8) :
    ∃ memory, m.act (.install program) = { m with memory := memory } := by
  cases done : m.install program with
  | ok e =>
    simp only [act, done]
    exact machine_install done
  | error f =>
    simp only [act, done]
    exact ⟨m.memory, rfl⟩

theorem events_install {program : Array UInt8} {e : Effect} (h : m.install program = .ok e) :
    e.events = [.notice (.programInstalled program.size)] := by
  unfold install at h
  split at h
  · cases h
    rfl
  · cases h

/-- Of a machine that is built nothing is seen but its font and its program. -/
theorem Born.events {said : List Event} (h : Born m said) :
    said = [] ∨ ∃ size, said = [.notice .fontInstalled, .notice (.programInstalled size)] := by
  cases h with
  | blank tuning dice => exact .inl rfl
  | @ofProgram dice program e h =>
    refine .inr ⟨program.size, ?_⟩
    unfold Machine.ofProgram at h
    cases loaded : (Machine.blank .standard dice).installFont.machine.install program with
    | error f => simp [loaded, Except.map] at h
    | ok e =>
      simp only [loaded, Except.map, Except.ok.injEq] at h
      rw [← h, events_install loaded]
      rfl
  | @assemble p said m h =>
    unfold Parts.assemble at h
    split at h
    · cases h
    · cases h
    · rename_i dice program _ _
      simp only at h
      split at h
      · cases h
      · rename_i loaded
        cases h
        refine .inr ⟨program.size, ?_⟩
        rw [events_install loaded]
        rfl

/-- What is seen of other acts is never seen of the end of a turn. -/
theorem late_said_of_other {a : Act} (other : ∀ b, a ≠ .beat b) {e : Event} (h : e ∈ m.said a) :
    e.late = false := by
  cases a with
  | beat b => exact (other b rfl).elim
  | execute op =>
    cases done : m.execute op with
    | ok effect =>
      simp only [said, done] at h
      cases outcome_of_ok done with
      | call | ret | ordinary => cases h
      | wait | roll =>
        obtain rfl := List.mem_singleton.1 h
        rfl
    | error f => simp only [said, done, List.not_mem_nil] at h
  | installFont =>
    obtain rfl := List.mem_singleton.1 h
    rfl
  | install program =>
    cases done : m.install program with
    | ok effect =>
      simp only [said, done, events_install done] at h
      obtain rfl := List.mem_singleton.1 h
      rfl
    | error f => simp only [said, done, List.not_mem_nil] at h

theorem filterMap_said_of_other {α : Type} {g : Event → Option α}
    (late : ∀ e, e.late = false → g e = none) {a : Act} (other : ∀ b, a ≠ .beat b) :
    (m.said a).filterMap g = [] :=
  List.filterMap_eq_nil_iff.2 fun e h => late e (late_said_of_other other h)

/-! ### The events of a history -/

theorem deeds_of_halted {f : Fault} (h : m.fault = some f) (b : Beat) : m.deeds (.beat b) = [] := by
  simp only [deeds, h]

theorem said_of_halted {f : Fault} (h : m.fault = some f) (b : Beat) : m.said (.beat b) = [] := by
  simp only [said, turn_of_halted h]

theorem deeds_of_alive (h : m.fault = none) (b : Beat) :
    m.deeds (.beat b) =
      (m.latchKeys b.keys).events.map .event ++ (m.fetched b).flatMap nextDeeds ++
        (closing b (latchedBatch (m.quota b) m b.keys)).map .event := by
  simp only [deeds, h]

theorem nextDeeds_of_none (h : m.nextOp = none) : m.nextDeeds = [] := by
  rw [nextDeeds, executeNext_of_none h, h]
  rfl

theorem nextDeeds_of_some {op : Instruction} (h : m.nextOp = some op) :
    m.nextDeeds = .executed m.advance op :: m.executeNext.events.map .event := by
  rw [nextDeeds, h]
  rfl

theorem event?_map_event (es : List Event) : (es.map .event).filterMap Deed.event? = es := by
  rw [List.filterMap_map]
  exact List.filterMap_some

theorem event?_nextDeeds (m : Machine) :
    m.nextDeeds.filterMap Deed.event? = m.executeNext.events := by
  have none : (m.nextOp.map (Deed.executed m.advance)).toList.filterMap Deed.event? = [] := by
    cases m.nextOp <;> rfl
  rw [nextDeeds, List.filterMap_append, none, event?_map_event, List.nil_append]

theorem event?_deeds (m : Machine) (a : Act) :
    (m.deeds a).filterMap Deed.event? = m.said a := by
  cases a with
  | beat b =>
    cases alive : m.fault with
    | some f =>
      rw [deeds_of_halted alive, said_of_halted alive]
      rfl
    | none =>
      rw [deeds_of_alive alive, said, events_turn alive]
      simp only [List.filterMap_append, event?_map_event, List.filterMap_flatMap,
        event?_nextDeeds]
  | execute op => exact event?_map_event _
  | installFont => exact event?_map_event _
  | install program => exact event?_map_event _

/-- **The events of a history are those that are seen.** -/
theorem event?_history (m : Machine) (acts : List Act) :
    (m.history acts).filterMap Deed.event? = m.told acts := by
  induction acts generalizing m with
  | nil => rfl
  | cons a acts ih =>
    rw [history, told, List.filterMap_append, event?_deeds, ih]

/-! ### Invariants -/

/-- **What each act preserves, together with the past, a life preserves.** -/
theorem history_invariant {I : Machine → List Deed → Prop}
    (step : ∀ m past a, I m past → I (m.act a) (past ++ m.deeds a)) (h : I m past)
    (acts : List Act) : I (m.run acts) (past ++ m.history acts) := by
  induction acts generalizing m past with
  | nil => simpa only [history, List.append_nil, run, List.foldl_nil] using h
  | cons a acts ih =>
    rw [history, ← List.append_assoc]
    exact ih (step m past a h)

/-- What each instruction preserves, together with the past, a batch preserves. -/
theorem fetches_invariant {I : Machine → List Deed → Prop}
    (next : ∀ m past, I m past → I m.executeNext.machine (past ++ m.nextDeeds)) (n : Nat)
    (h : I m past) : I (batched n m).machine (past ++ (fetches n m).flatMap nextDeeds) := by
  induction n generalizing m past with
  | zero => simpa only [fetches, List.flatMap_nil, List.append_nil, batched_zero] using h
  | succ n ih =>
    rcases m.running_or_waiting with mode | ⟨x, mode⟩
    · cases failed : m.executeNext.failure with
      | some f =>
        simp only [batched_succ_of_failure mode failed, fetches, mode, failed,
          List.flatMap_singleton]
        exact next m past h
      | none =>
        simp only [batched_succ_of_ok mode failed, fetches, mode, failed, List.flatMap_cons,
          ← List.append_assoc]
        exact ih (next m past h)
    · simpa only [batched_of_waiting mode, fetches, mode, List.flatMap_nil, List.append_nil]
        using h

/-- What only instructions and the end of a turn may change. -/
structure Still (m n : Machine) : Prop where
  stale : n.stale = m.stale
  frame : n.frame = m.frame
  delay : n.delay = m.delay
  sound : n.sound = m.sound
  dice : n.dice = m.dice

/-- A statement about machine and past that an executed instruction preserves, and that does not
speak of anything else but the end of a turn. -/
structure Tracks (I : Machine → List Deed → Prop) : Prop where
  still : ∀ {m n past} {es : List Event}, (∀ e ∈ es, e.late = false) → Still m n → I m past →
    I n (past ++ es.map .event)
  executed : ∀ {m past op} {es : List Event}, (∀ e ∈ es, e.late = false) → I m past →
    I (m.act (.execute op)) (past ++ .executed m op :: es.map .event)

theorem still_installed (m : Machine) (memory : Memory) : Still m { m with memory := memory } :=
  ⟨rfl, rfl, rfl, rfl, rfl⟩

theorem still_latchKeys (m : Machine) (keys : KeySet) : Still m (m.latchKeys keys).machine := by
  rcases latchKeys_cases m keys with ⟨kept, -⟩ | ⟨x, key, rest, -, -, answered⟩
  · rw [kept]
    exact ⟨rfl, rfl, rfl, rfl, rfl⟩
  · rw [answered]
    exact ⟨rfl, rfl, rfl, rfl, rfl⟩

/-- The instruction at the program counter is executed as the owner would have it executed. -/
theorem machine_executeNext {op : Instruction} (h : m.nextOp = some op) :
    m.executeNext.machine = m.advance.act (.execute op) := by
  cases done : m.advance.execute op with
  | ok e =>
    rw [executeNext_of_ok h done]
    simp only [act, done]
  | error f =>
    rw [executeNext_of_error h done]
    simp only [act, done]

section

variable {I : Machine → List Deed → Prop}

theorem Tracks.executeNext (t : Tracks I) (h : I m past) :
    I m.executeNext.machine (past ++ m.nextDeeds) := by
  have nothing : ∀ e ∈ ([] : List Event), e.late = false := nofun
  have ahead : Still m m.advance := ⟨rfl, rfl, rfl, rfl, rfl⟩
  have moved : I m.advance (past ++ []) := t.still nothing ahead h
  cases next : m.nextOp with
  | none =>
    rw [nextDeeds_of_none next, executeNext_of_none next]
    exact moved
  | some op =>
    rw [List.append_nil] at moved
    rw [nextDeeds_of_some next, machine_executeNext next]
    exact t.executed (fun e h => late_executeNext h) moved

/-- A turn preserves the statement up to its end. -/
theorem Tracks.latchedBatch (t : Tracks I) (h : I m past) (alive : m.fault = none) (b : Beat) :
    I (latchedBatch (m.quota b) m b.keys).machine
      (past ++ (m.latchKeys b.keys).events.map .event ++ (m.fetched b).flatMap nextDeeds) := by
  have late : ∀ e ∈ (m.latchKeys b.keys).events, e.late = false := fun e h => late_latchKeys h
  have look := t.still late (still_latchKeys m b.keys) h
  have batch := fetches_invariant (fun _ _ h => t.executeNext h) (m.quota b) look
  simpa only [Machine.latchedBatch, fetched, alive] using batch

theorem Tracks.other (t : Tracks I) (h : I m past) {a : Act} (other : ∀ b, a ≠ .beat b) :
    I (m.act a) (past ++ m.deeds a) := by
  have late : ∀ e ∈ m.said a, e.late = false := fun e h => late_said_of_other other h
  cases a with
  | beat b => exact (other b rfl).elim
  | execute op => exact t.executed late h
  | installFont =>
    rw [act_installFont]
    exact t.still late (still_installed m _) h
  | install program =>
    obtain ⟨memory, same⟩ := act_install m program
    rw [same]
    exact t.still late (still_installed m _) h

/-- An act preserves the statement if the end of a turn does. -/
theorem Tracks.act (t : Tracks I)
    (ending : ∀ {a past} b, I a.machine past →
      I (endTurn b a).machine (past ++ (closing b a).map .event))
    (h : I m past) (a : Act) : I (m.act a) (past ++ m.deeds a) := by
  obtain ⟨b, rfl⟩ | other := a.beat_or_other
  · cases alive : m.fault with
    | some f =>
      simp only [Machine.act, turn_of_halted alive, deeds_of_halted alive, List.append_nil]
      exact h
    | none =>
      have ended := ending b (t.latchedBatch h alive b)
      simpa only [Machine.act, turn_of_alive alive, deeds_of_alive alive, List.append_assoc]
        using ended
  · exact t.other h other

end

end Machine

end Chip8
