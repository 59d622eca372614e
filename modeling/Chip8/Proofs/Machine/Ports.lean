import Chip8.Proofs.Machine.History

/-!
# The calls that a turn makes on its surroundings

A frame asks for the keys, draws a random byte for each instruction that wants one, tells the tone
what to do and may show the picture, in this order and nothing else; a step only asks for the keys
and draws (`Machine.port_protocol`).

The random bytes come in the order in which they are wanted over the whole life of a machine.  This
is an invariant of machine and past (`Machine.Rolled`): every instruction that was executed found
the source of random bytes as many bytes further as there were random ones before it.
-/

namespace Chip8

/-- The calls on the surroundings among some events; notices are left out. -/
def Event.ports (seen : List Event) : List Event := seen.filter fun e => e.notice?.isNone

/-- Whether an instruction wants a random byte. -/
def Instruction.rolls : Instruction → Bool
  | .random .. => true
  | _ => false

/-- A source of random bytes after `n` draws. -/
def Dice.skip (d : Dice) (n : Nat) : Dice := { d with drawn := d.drawn + n }

namespace Deed

/-- Whether an instruction is executed that wants a random byte. -/
def rolls : Deed → Bool
  | .executed _ op => op.rolls
  | .event _ => false

/-- The draw that an instruction makes, if it wants a random byte. -/
def draw? : Deed → Option Event
  | .executed on op => if op.rolls then some (.draw on.dice.top) else none
  | .event _ => none

/-- How many random bytes were wanted. -/
def wanted (past : List Deed) : Nat := past.countP rolls

end Deed

open Deed (wanted)

/-! ### Draws one after the other -/

theorem Dice.skip_zero (d : Dice) : d.skip 0 = d := rfl

theorem Dice.skip_skip (d : Dice) (i j : Nat) : (d.skip i).skip j = d.skip (i + j) := by
  simp only [skip, Nat.add_assoc]

theorem wanted_append (past l : List Deed) : wanted (past ++ l) = wanted past + wanted l :=
  List.countP_append

theorem wanted_map_event (es : List Event) : wanted (es.map .event) = 0 := by
  simp [wanted, Deed.rolls]

namespace Machine

/-- Each instruction of `past` found the source of random bytes as many bytes further than `d` as
instructions before it wanted one. -/
def Rolled : Dice → List Deed → Prop
  | _, [] => True
  | d, .event _ :: past => Rolled d past
  | d, .executed on op :: past => on.dice = d ∧ Rolled (d.skip (if op.rolls then 1 else 0)) past

variable {m : Machine} {d : Dice} {past l : List Deed}

theorem wanted_executed (on : Machine) (op : Instruction) (past : List Deed) :
    wanted (.executed on op :: past) = (if op.rolls then 1 else 0) + wanted past := by
  rw [wanted, List.countP_cons, Nat.add_comm]
  rfl

theorem rolled_append : Rolled d (past ++ l) ↔ Rolled d past ∧ Rolled (d.skip (wanted past)) l := by
  induction past generalizing d with
  | nil => simp [Rolled, wanted, Dice.skip_zero]
  | cons deed past ih =>
    cases deed with
    | event e =>
      have same : wanted (.event e :: past) = wanted past := List.countP_cons_of_neg nofun
      rw [List.cons_append, Rolled, Rolled, same, ih]
    | executed on op =>
      rw [List.cons_append, Rolled, Rolled, ih, Dice.skip_skip, ← wanted_executed on, and_assoc]

theorem rolled_map_event (es : List Event) : Rolled d (es.map .event) := by
  induction es with
  | nil => trivial
  | cons e es ih => exact ih

/-- An instruction finds the byte whose turn it is. -/
theorem Rolled.dice {on : Machine} {op : Instruction} {front rest : List Deed}
    (h : Rolled d (front ++ .executed on op :: rest)) : on.dice = d.skip (wanted front) :=
  (rolled_append.1 h).2.1

/-- The draws that instructions make are the next bytes of the source, one after the other. -/
theorem Rolled.draws (h : Rolled d past) :
    past.filterMap Deed.draw? =
      (List.range (wanted past)).map fun i => .draw (d.face (d.drawn + i)) := by
  induction past generalizing d with
  | nil => rfl
  | cons deed past ih =>
    cases deed with
    | event e =>
      have same : wanted (.event e :: past) = wanted past := List.countP_cons_of_neg nofun
      rw [same]
      exact ih h
    | executed on op =>
      obtain ⟨rfl, h⟩ := h
      have later := ih h
      rw [wanted_executed]
      cases roll : op.rolls with
      | false =>
        rw [roll] at later
        have none : Deed.draw? (.executed on op) = none := by simp [Deed.draw?, roll]
        rw [List.filterMap_cons_none none, later]
        simp [Dice.skip]
      | true =>
        rw [roll] at later
        have some : Deed.draw? (.executed on op) = some (.draw on.dice.top) := by
          simp [Deed.draw?, roll]
        rw [List.filterMap_cons_some some, later, if_pos rfl, Nat.add_comm, List.range_succ_eq_map,
          List.map_cons, List.map_map]
        simp [Dice.skip, Dice.top, Function.comp_def, Nat.add_assoc, Nat.add_comm 1]

/-! ### Instructions and acts -/

/-- An instruction takes a byte if it wants one. -/
theorem dice_act_execute (m : Machine) (op : Instruction) :
    (m.act (.execute op)).dice = m.dice.skip (if op.rolls then 1 else 0) := by
  cases done : m.execute op with
  | ok e =>
    simp only [Machine.act, done]
    cases outcome_of_ok done with
    | call | ret | wait | roll => rfl
    | ordinary plain keeps =>
      rw [keeps.dice]
      cases op <;> first | rfl | cases plain
  | error f =>
    simp only [Machine.act, done]
    rcases execute_eq_error_iff.1 done with ⟨rfl, -⟩ | ⟨⟨nnn, rfl⟩, -⟩ <;> rfl

/-- What an instruction wants of its surroundings: nothing but a random byte. -/
theorem ports_of_ok {op : Instruction} {e : Effect} (h : m.execute op = .ok e) :
    Event.ports e.events = if op.rolls then [.draw m.dice.top] else [] := by
  cases outcome_of_ok h with
  | call | ret | wait | roll => rfl
  | ordinary plain keeps => cases op <;> first | rfl | cases plain

theorem rolls_of_error {op : Instruction} {f : Fault} (h : m.execute op = .error f) :
    op.rolls = false := by
  rcases execute_eq_error_iff.1 h with ⟨rfl, -⟩ | ⟨⟨nnn, rfl⟩, -⟩ <;> rfl

/-- The invariant: every instruction found the byte whose turn it was, and so will the next one. -/
structure Fair (d : Dice) (m : Machine) (past : List Deed) : Prop where
  rolled : Rolled d past
  dice : m.dice = d.skip (wanted past)

theorem Fair.events {n : Machine} (h : Fair d m past) (es : List Event) (same : n.dice = m.dice) :
    Fair d n (past ++ es.map .event) where
  rolled := rolled_append.2 ⟨h.rolled, rolled_map_event es⟩
  dice := by rw [wanted_append, wanted_map_event, Nat.add_zero, same, h.dice]

theorem Fair.executed (h : Fair d m past) (op : Instruction) (es : List Event) :
    Fair d (m.act (.execute op)) (past ++ .executed m op :: es.map .event) where
  rolled := rolled_append.2 ⟨h.rolled, h.dice, rolled_map_event es⟩
  dice := by
    rw [wanted_append, wanted_executed, wanted_map_event, Nat.add_zero, dice_act_execute, h.dice,
      Dice.skip_skip]

theorem tracks_fair : Tracks (Fair d) where
  still _ same h := h.events _ same.dice
  executed _ h := h.executed _ _

/-- **Whatever is done to a machine, each instruction finds the byte whose turn it is.** -/
theorem Fair.act (h : Fair d m past) (a : Act) : Fair d (m.act a) (past ++ m.deeds a) := by
  refine tracks_fair.act (fun {a past} b h => h.events _ ?_) h a
  refine (idle_endTurn b a).dice.trans ?_
  unfold Advance.settled
  split <;> rfl

/-! ### The calls of a turn -/

theorem ports_append (l l' : List Event) :
    Event.ports (l ++ l') = Event.ports l ++ Event.ports l' :=
  List.filter_append _ _

theorem ports_latchKeys (m : Machine) (keys : KeySet) :
    Event.ports (m.latchKeys keys).events = [.poll] := by
  rcases latchKeys_cases m keys with ⟨kept, -⟩ | ⟨x, key, rest, -, -, answered⟩
  · rw [kept]
    rfl
  · rw [answered]
    rfl

theorem draw?_map_event (es : List Event) : (es.map .event).filterMap Deed.draw? = [] := by
  rw [List.filterMap_map]
  exact List.filterMap_eq_nil_iff.2 fun _ _ => rfl

theorem ports_executeNext (m : Machine) :
    Event.ports m.executeNext.events = m.nextDeeds.filterMap Deed.draw? := by
  cases next : m.nextOp with
  | none =>
    rw [nextDeeds_of_none next, executeNext_of_none next]
    rfl
  | some op =>
    rw [nextDeeds_of_some next, List.filterMap_cons, draw?_map_event]
    cases done : m.advance.execute op with
    | error f =>
      rw [executeNext_of_error next done, Deed.draw?, rolls_of_error done]
      rfl
    | ok e =>
      have ports := ports_of_ok done
      rw [executeNext_of_ok next done, Deed.draw?]
      refine ports.trans ?_
      cases op.rolls <;> rfl

/-- A turn asks for the keys, then draws what its instructions want, then ends. -/
theorem ports_turn (alive : m.fault = none) (b : Beat) :
    Event.ports (m.turn b).events =
      .poll :: (m.deeds (.beat b)).filterMap Deed.draw? ++
        Event.ports (closing b (latchedBatch (m.quota b) m b.keys)) := by
  have draws : Event.ports ((m.fetched b).flatMap fun k => k.executeNext.events) =
      ((m.fetched b).flatMap nextDeeds).filterMap Deed.draw? := by
    rw [Event.ports, List.filter_flatMap, List.filterMap_flatMap]
    exact congrArg (fun g => (m.fetched b).flatMap g) (funext ports_executeNext)
  rw [events_turn alive, deeds_of_alive alive, ports_append, ports_append, ports_latchKeys, draws,
    List.filterMap_append, List.filterMap_append, draw?_map_event, draw?_map_event,
    List.append_nil]
  rfl

theorem ports_presentFrame (m : Machine) :
    ∃ shown : Option Frame, Event.ports m.presentFrame.events = shown.toList.map .present := by
  rw [events_presentFrame]
  split
  · exact ⟨some m.frame, rfl⟩
  · exact ⟨none, rfl⟩

theorem ports_tickTimers (m : Machine) : Event.ports m.tickTimers.events = [] := by
  rw [events_tickTimers]
  split <;> rfl

/-- The end of a frame tells the tone what to do, and may show the picture. -/
theorem ports_closing_cycle (keys : KeySet) {a : Advance} (alive : a.machine.fault = none) :
    let n := (endFrame a).machine
    ∃ shown : Option Frame, Event.ports (closing (.cycle keys) a) =
      (if n.fault = none ∧ 0 < n.sound.value then
        .play n.tuning.gain n.tuning.frequency else .silence) :: shown.toList.map .present := by
  intro n
  cases failed : a.failure with
  | some f =>
    obtain ⟨picture, shown⟩ := ports_presentFrame a.machine
    have halted : n.fault = some f := by simp only [n, endFrame, failed, halt]
    have silent : ¬ (n.fault = none ∧ 0 < n.sound.value) := by
      rw [halted]
      rintro ⟨h, -⟩
      cases h
    refine ⟨picture, ?_⟩
    rw [if_neg silent, ← shown]
    simp only [closing, failed, ports_append]
    exact List.append_nil _
  | none =>
    obtain ⟨picture, shown⟩ := ports_presentFrame a.machine.tickTimers.machine
    have left : n = { a.machine.tickTimers.machine with stale := false } := by
      simp only [n, endFrame, failed, machine_presentFrame]
    have alive' : n.fault = none := by
      rw [left]
      exact (idle_tickTimers a.machine).fault.trans alive
    refine ⟨picture, ?_⟩
    simp only [closing, failed, ports_append, ports_tickTimers, List.nil_append, alive', true_and,
      ← shown, tone_eq]
    rw [left]
    split <;> rfl

/-! ### Steps -/

theorem wanted_nextDeeds_le (m : Machine) : wanted m.nextDeeds ≤ 1 := by
  cases next : m.nextOp with
  | none =>
    rw [nextDeeds_of_none next]
    exact Nat.zero_le 1
  | some op =>
    rw [nextDeeds_of_some next, wanted_executed, wanted_map_event]
    split <;> decide

theorem wanted_step_le (alive : m.fault = none) (keys : KeySet) :
    wanted (m.deeds (.beat (.step keys))) ≤ 1 := by
  have batch (k : Machine) : wanted ((fetches 1 k).flatMap nextDeeds) ≤ 1 := by
    have one : (fetches 1 k).flatMap nextDeeds = [] ∨
        (fetches 1 k).flatMap nextDeeds = k.nextDeeds := by
      rcases k.running_or_waiting with mode | ⟨x, mode⟩
      · cases failed : k.executeNext.failure <;> simp [fetches, mode, failed]
      · simp [fetches, mode]
    rcases one with none | one
    · rw [none]
      exact Nat.zero_le 1
    · rw [one]
      exact wanted_nextDeeds_le k
  rw [deeds_of_alive alive, wanted_append, wanted_append, wanted_map_event, wanted_map_event]
  simp only [fetched, alive, Nat.zero_add, Nat.add_zero]
  exact batch _

theorem ports_step (alive : m.fault = none) (keys : KeySet) :
    Event.ports (m.step keys).events =
      .poll :: (m.deeds (.beat (.step keys))).filterMap Deed.draw? := by
  have ports := ports_turn alive (.step keys)
  have silent (a : Advance) : Event.ports (closing (.step keys) a) = [] := by
    rw [closing_step]
    cases a.failure <;> rfl
  rw [silent, List.append_nil] at ports
  exact ports

/-! ### The whole life -/

/-- The bytes that a turn of `m` draws, when those before it drew what `past` wanted. -/
theorem Fair.draws (h : Fair d m past) (a : Act) :
    (m.deeds a).filterMap Deed.draw? =
      (List.range (wanted (m.deeds a))).map fun i =>
        .draw (d.face (d.drawn + (wanted past + i))) := by
  have later := (rolled_append.1 (h.act a).rolled).2
  rw [later.draws]
  simp only [Dice.skip, Nat.add_assoc]

/-- **The calls that a turn makes on its surroundings.**  Let `n` be what became of a machine,
whatever was done to it, let `past` be all that happened, and let `byte j` be the byte that the
source of random bytes yields after `j` others.

* Of the instructions that were executed and want a random byte, the one with `j` others before it
  got `byte j`.
* A frame of `n`, if it is not halted, asks for the keys once, draws the bytes that follow, one for
  each instruction of the frame that wants one, tells the tone to play or to be silent, and shows
  at most one picture, in this order, and does nothing else.  The tone plays exactly if no fault
  halted the machine and the sound timer stands above zero afterwards.
* A step asks for the keys once and draws at most one byte, and does nothing else. -/
theorem port_protocol (m : Machine) (acts : List Act) :
    let n := m.run acts
    let past := m.history acts
    let byte := fun j => m.dice.face (m.dice.drawn + j)
    let draws := fun b => (List.range (wanted (n.deeds (.beat b)))).map fun i =>
      Event.draw (byte (wanted past + i))
    (∀ front on x mask rest, past = front ++ .executed on (.random x mask) :: rest →
      on.execute (.random x mask) =
        .ok ⟨{ on with dice := on.dice.next }.setReg x (byte (wanted front) &&& mask),
          [.draw (byte (wanted front))]⟩) ∧
    (n.fault = none → ∀ keys,
      (let frame := n.cycle keys
        ∃ shown : Option Frame, Event.ports frame.events =
          .poll :: draws (.cycle keys) ++
            (if frame.machine.fault = none ∧ 0 < frame.machine.sound.value then
              .play n.tuning.gain n.tuning.frequency else .silence) ::
            shown.toList.map .present) ∧
      Event.ports (n.step keys).events = .poll :: draws (.step keys) ∧
        (draws (.step keys)).length ≤ 1) := by
  intro n past byte draws
  have start : Fair m.dice m [] := ⟨trivial, (Dice.skip_zero m.dice).symm⟩
  have fair : Fair m.dice n past := history_invariant (fun _ _ a h => h.act a) start acts
  refine ⟨fun front on x mask rest split => ?_, fun alive keys => ⟨?_, ?_, ?_⟩⟩
  · have found := (split ▸ fair.rolled : Rolled m.dice _).dice
    have top : on.dice.top = byte (wanted front) := by rw [found]; rfl
    rw [← top]
    rfl
  · have left : n.cycle keys = endFrame (latchedBatch n.tuning.speed n keys) := cycle_of_alive alive
    have tuning : (n.cycle keys).machine.tuning = n.tuning := by
      rw [left, (idle_endFrame _).tuning, Advance.tuning_settled, tuning_latchedBatch]
    have alive' := (fault_latchedBatch n.tuning.speed n keys).trans alive
    obtain ⟨shown, closed⟩ := ports_closing_cycle keys alive'
    rw [← left, tuning] at closed
    refine ⟨shown, ?_⟩
    have ports := ports_turn alive (.cycle keys)
    rw [fair.draws] at ports
    refine ports.trans ?_
    rw [← closed]
    rfl
  · rw [ports_step alive, fair.draws]
  · rw [List.length_map, List.length_range]
    exact wanted_step_le alive keys

/-- The owner has the first random byte drawn; the second one is drawn in a frame, which puts it
into the sound timer. -/
theorem port_protocol_of_rolled_sound :
    let m := blank .standard (.ofFaces fun j => UInt8.ofNat (7 + j))
    let acts := [Act.execute (.random 6 0xFF), .execute (.setByte 0 0xC1),
      .execute (.setByte 1 0xFF), .execute (.setByte 2 0xF1), .execute (.setByte 3 0x18),
      .execute (.setByte 4 0x10), .execute (.setByte 5 0x04), .execute (.storeRegisters 5),
      .execute (.jump 0)]
    let n := m.run acts
    (∃ rest, m.history acts = [] ++ .executed m (.random 6 0xFF) :: rest) ∧
      m.execute (.random 6 0xFF) =
        .ok ⟨{ m with dice := m.dice.next }.setReg 6 (m.dice.face 0 &&& 0xFF),
          [.draw (m.dice.face 0)]⟩ ∧
      n.fault = none ∧
      ∃ shown : Option Frame, Event.ports (n.cycle .empty).events =
        .poll :: .draw 8 :: .play n.tuning.gain n.tuning.frequency ::
          shown.toList.map .present := by
  intro m acts n
  have first : ∃ rest, m.history acts = [] ++ .executed m (.random 6 0xFF) :: rest := ⟨_, rfl⟩
  have alive : n.fault = none := by decide +kernel
  obtain ⟨got, turns⟩ := port_protocol m acts
  obtain ⟨rest, split⟩ := first
  obtain ⟨⟨shown, calls⟩, -⟩ := turns alive .empty
  refine ⟨⟨rest, split⟩, got [] m 6 0xFF rest split, alive, shown, calls.trans ?_⟩
  have wants : wanted ((m.run acts).deeds (.beat (.cycle .empty))) = 1 := by decide +kernel
  have wanted : Deed.wanted (m.history acts) = 1 := by decide +kernel
  have plays : (n.cycle .empty).machine.fault = none ∧
      0 < (n.cycle .empty).machine.sound.value := by
    decide +kernel
  simp only [wanted, wants]
  rw [if_pos plays]
  rfl

end Machine

end Chip8
