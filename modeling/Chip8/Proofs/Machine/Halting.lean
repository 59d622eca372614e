import Chip8.Proofs.Machine.History

/-!
# Halted machines

A fault that halts a machine is final (`Machine.fault_is_final`): the machine never changes again by
itself and lets nothing be seen any more, nothing that its owner does takes the fault away, and of
all that is ever logged of the machine only the fault is an error.

* `Machine.fault_turn` : a turn halts a machine exactly if its batch fails.
* `Machine.status_turn_eq_halted_iff` : a turn ends with a fault exactly if the machine has it then.
* `Machine.error?_said` : an act logs an error exactly if it halts the machine.
-/

namespace Chip8

/-- The notice that an event is, if it is an error. -/
def Event.error? (e : Event) : Option Notice :=
  e.notice?.filter fun n => n.level = .error

namespace Machine

variable {m : Machine} {f : Fault}

/-! ### One turn -/

/-- A turn halts a machine exactly if its batch fails. -/
theorem fault_turn (alive : m.fault = none) (b : Beat) :
    (m.turn b).machine.fault = (latchedBatch (m.quota b) m b.keys).failure := by
  have kept := fault_latchedBatch (m.quota b) m b.keys
  rw [turn_of_alive alive, (idle_endTurn b _).fault]
  cases failed : (latchedBatch (m.quota b) m b.keys).failure with
  | some f => rw [Advance.settled_of_failure failed]
  | none => rw [Advance.settled_of_ok failed, kept, alive]

theorem status_endTurn_eq_halted_iff (b : Beat) (a : Advance) :
    (endTurn b a).status = .halted f ↔ a.failure = some f := by
  cases b <;> cases failed : a.failure <;>
    simp [endTurn, endFrame, endStep, failed, status_ne_halted]

/-- **A turn ends with a fault exactly if the machine has that fault then.** -/
theorem status_turn_eq_halted_iff (m : Machine) (b : Beat) (f : Fault) :
    (m.turn b).status = .halted f ↔ (m.turn b).machine.fault = some f := by
  cases alive : m.fault with
  | some g => simp [turn_of_halted alive, alive]
  | none => rw [fault_turn alive, turn_of_alive alive, status_endTurn_eq_halted_iff]

theorem turns_of_halted (h : m.fault = some f) (bs : List Beat) :
    m.turns bs = bs.map fun _ => ⟨m, [], .halted f⟩ := by
  induction bs with
  | nil => rfl
  | cons b bs ih =>
    simp only [turns, turn_of_halted h, ih, List.map_cons]

/-! ### Whatever is done -/

/-- Only a beat can halt a machine. -/
theorem fault_act_of_other {a : Act} (other : ∀ b, a ≠ .beat b) : (m.act a).fault = m.fault := by
  cases a with
  | beat b => exact (other b rfl).elim
  | execute op =>
    cases done : m.execute op with
    | ok e => simp only [act, done, (outcome_of_ok done).fault]
    | error f => simp only [act, done]
  | installFont => rw [act_installFont]
  | install program =>
    obtain ⟨memory, same⟩ := act_install m program
    rw [same]

/-- Nothing takes a fault away or puts another one in its place. -/
theorem fault_act (h : m.fault = some f) (a : Act) : (m.act a).fault = some f := by
  obtain ⟨b, rfl⟩ | other := a.beat_or_other
  · simp only [act, turn_of_halted h, h]
  · exact (fault_act_of_other other).trans h

theorem fault_run (h : m.fault = some f) (acts : List Act) : (m.run acts).fault = some f := by
  induction acts generalizing m with
  | nil => exact h
  | cons a acts ih => exact ih (fault_act h a)

/-- A machine that is not halted in the end was not halted at the start. -/
theorem alive_of_run {acts : List Act} (alive : (m.run acts).fault = none) : m.fault = none := by
  cases halted : m.fault with
  | none => rfl
  | some f =>
    rw [fault_run halted] at alive
    cases alive

/-! ### Errors in the log -/

theorem error?_of_not_late {e : Event} (h : e.late = false) : e.error? = none := by
  cases e with
  | poll | draw => rfl
  | play | silence | present => cases h
  | notice n => cases n <;> first | rfl | cases h

theorem error?_closing (b : Beat) (a : Advance) :
    (closing b a).filterMap Event.error? = a.failure.toList.map .halted := by
  have shown (m : Machine) : m.presentFrame.events.filterMap Event.error? = [] := by
    rw [events_presentFrame]
    split <;> rfl
  have ticked (m : Machine) : m.tickTimers.events.filterMap Event.error? = [] := by
    rw [events_tickTimers]
    split <;> rfl
  have toned (m : Machine) : m.tone.error? = none := by
    rw [tone_eq]
    split <;> rfl
  cases b with
  | step keys => cases failed : a.failure <;> simp only [closing, failed] <;> rfl
  | cycle keys =>
    cases failed : a.failure with
    | some f =>
      simp only [closing, failed, List.filterMap_append, List.filterMap_cons, shown]
      rfl
    | none =>
      simp only [closing, failed, List.filterMap_append, List.filterMap_cons, shown, ticked, toned]
      rfl

/-- **An act logs an error exactly if it halts the machine.** -/
theorem error?_said (alive : m.fault = none) (a : Act) :
    (m.said a).filterMap Event.error? = (m.act a).fault.toList.map .halted := by
  obtain ⟨b, rfl⟩ | other := a.beat_or_other
  · simp only [said, act]
    rw [filterMap_turn (fun e h => error?_of_not_late h) alive, error?_closing, fault_turn alive]
  · rw [filterMap_said_of_other (fun e h => error?_of_not_late h) other,
      fault_act_of_other other, alive]
    rfl

theorem error?_said_of_halted (h : m.fault = some f) (a : Act) :
    (m.said a).filterMap Event.error? = [] := by
  obtain ⟨b, rfl⟩ | other := a.beat_or_other
  · rw [said_of_halted h]
    rfl
  · exact filterMap_said_of_other (fun e h => error?_of_not_late h) other

theorem error?_told_of_halted (h : m.fault = some f) (acts : List Act) :
    (m.told acts).filterMap Event.error? = [] := by
  induction acts generalizing m with
  | nil => rfl
  | cons a acts ih =>
    rw [told, List.filterMap_append, error?_said_of_halted h, ih (fault_act h a), List.append_nil]

/-- **Of a machine that runs or waits only the fault that halts it is ever logged as an error.** -/
theorem error?_told (alive : m.fault = none) (acts : List Act) :
    (m.told acts).filterMap Event.error? = (m.run acts).fault.toList.map .halted := by
  induction acts generalizing m with
  | nil =>
    rw [run, List.foldl_nil, alive]
    rfl
  | cons a acts ih =>
    have step : m.run (a :: acts) = (m.act a).run acts := rfl
    rw [told, List.filterMap_append, error?_said alive, step]
    cases alive' : (m.act a).fault with
    | none =>
      rw [ih alive']
      rfl
    | some f =>
      -- The machine is halted now, and nothing that follows is an error.
      rw [error?_told_of_halted alive', List.append_nil, fault_run alive']

/-- Building a machine neither halts it nor logs an error. -/
theorem Born.sound {said : List Event} (h : Born m said) :
    m.fault = none ∧ said.filterMap Event.error? = [] := by
  obtain ⟨tuning, dice, memory, same⟩ := blank_of_built ⟨said, h⟩
  refine ⟨same ▸ rfl, ?_⟩
  rcases h.events with rfl | ⟨size, rfl⟩ <;> rfl

/-! ### The whole life -/

/-- **A fault is final.**  Let `n` be what became of a machine that was built, whatever was done to
it.

* If `n` is halted, all frames and steps that follow tell its fault, let nothing be seen and leave
  it as it is, whatever keys are down; and whatever else is done to it, it keeps its fault.
* A frame or a step of `n` tells a fault exactly if the machine has that fault afterwards.
* All errors that were ever logged of `n` are the one fault that halted it, if one did. -/
theorem fault_is_final {said : List Event} (born : Born m said) (acts : List Act) :
    let n := m.run acts
    (∀ f, n.fault = some f →
      (∀ bs, n.turns bs = bs.map (fun _ => ⟨n, [], .halted f⟩) ∧ n.after bs = n) ∧
      ∀ later, (n.run later).fault = some f) ∧
    (∀ b f, (n.turn b).status = .halted f ↔ (n.turn b).machine.fault = some f) ∧
    (said ++ m.told acts).filterMap Event.error? = n.fault.toList.map .halted := by
  intro n
  obtain ⟨alive, silent⟩ := born.sound
  refine ⟨fun f halted => ⟨fun bs => ?_, fault_run halted⟩, status_turn_eq_halted_iff n, ?_⟩
  · exact ⟨turns_of_halted halted bs, after_of_halted halted bs⟩
  · rw [List.filterMap_append, silent, error?_told alive]
    rfl

/-- A machine whose first word is no instruction; afterwards its owner has a call executed. -/
theorem fault_is_final_of_blank :
    let m := blank .standard (.ofFaces fun _ => 0)
    let n := m.run [.beat (.cycle (.single 4)), .execute (.call 0x300), .beat (.step .empty)]
    let f := Fault.unknownOpcode 0 0x200
    Born m [] ∧ n.fault = some f ∧
      n.turns [.step (.single 7), .cycle .empty] = [⟨n, [], .halted f⟩, ⟨n, [], .halted f⟩] ∧
      ((m.told [.beat (.cycle (.single 4)), .execute (.call 0x300), .beat (.step .empty)]).filterMap
        Event.error?) = [.halted f] := by
  intro m n f
  have halted : n.fault = some f := by decide +kernel
  obtain ⟨final, -, errors⟩ := fault_is_final (.blank .standard (.ofFaces fun _ => 0))
    [.beat (.cycle (.single 4)), .execute (.call 0x300), .beat (.step .empty)]
  obtain ⟨frozen, -⟩ := final f halted
  refine ⟨.blank _ _, halted, (frozen _).1, ?_⟩
  rw [List.nil_append] at errors
  rw [errors]
  exact congrArg (fun fault : Option Fault => fault.toList.map Notice.halted) halted

end Machine

end Chip8
