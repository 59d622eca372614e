import Chip8.Proofs.Machine.Effects
import Chip8.Proofs.Machine.Ports

/-!
# The timers

Both timers count down by one at the end of a frame, unless the frame ends with a fault or in a wait
that stops them, and nothing else changes them but the instruction that sets them
(`Machine.timer_law`).

* `Machine.clock_act` : what a timer holds after anything that may be done to a machine.
* `Machine.clock_run` : a timer that is not set counts the frames in which it ticks.
* `Machine.plays_frames` : how long a tone lasts.
* `Machine.logs_finished_said` : when the log tells that the tone ends.
-/

namespace Chip8

/-- Whether the tone is told to play. -/
def Event.plays : Event → Bool
  | .play .. => true
  | _ => false

/-- Whether it is said that the sound timer reached zero. -/
def Event.finishes : Event → Bool
  | .notice .soundFinished => true
  | _ => false

/-- Whether a line of some level and wording is written to the log. -/
def Event.logs (level : Log.Level) (message : String) (e : Event) : Bool :=
  e.notice?.any fun n => n.level = level ∧ n.message = message

namespace Deed

/-- The value that an instruction puts into a timer, if it sets the timer. -/
def load? (c : Clock) : Deed → Option UInt8
  | .executed on op => (op.sets? c).map on.reg
  | .event _ => none

/-- The values that are put into a timer, one after the other. -/
def loads (c : Clock) (past : List Deed) : List UInt8 := past.filterMap (load? c)

end Deed

namespace Machine

/-- Whether the timers tick in what is done to a machine: it is a frame, and leaves the machine
without a fault and running, or waiting with timers that tick nevertheless. -/
def ticking (m : Machine) : Act → Bool
  | .beat (.cycle keys) =>
    let n := (m.cycle keys).machine
    n.fault = none ∧ (n.mode = .running ∨ n.tuning.timersWhileWaiting = true)
  | _ => false

/-- How often the timers tick in the course of some acts. -/
def tickings (m : Machine) : List Act → Nat
  | [] => 0
  | a :: acts => (m.ticking a).toNat + (m.act a).tickings acts

/-- What a timer holds at the end of the batch of an act, before it may tick: the value that was put
into it last, or the one it had. -/
def held (m : Machine) (c : Clock) (a : Act) : UInt8 :=
  (Deed.loads c (m.deeds a)).getLastD (m.clock c)

end Machine

open Deed (loads)

/-! ### Values put into a timer -/

variable {c : Clock} {past l : List Deed}

theorem loads_append : loads c (past ++ l) = loads c past ++ loads c l := List.filterMap_append

theorem loads_map_event (es : List Event) : loads c (es.map .event) = [] := by
  rw [loads, List.filterMap_map]
  exact List.filterMap_eq_nil_iff.2 fun _ _ => rfl

theorem loads_executed (on : Machine) (op : Instruction) (es : List Event) :
    loads c (.executed on op :: es.map .event) = ((op.sets? c).map on.reg).toList := by
  rw [← List.singleton_append, loads_append, loads_map_event, List.append_nil]
  cases set : op.sets? c <;> simp [loads, Deed.load?, set]

theorem Timer.toNat_value_tick (t : Timer) : t.tick.value.toNat = t.value.toNat - 1 := by
  unfold tick
  split
  · rename_i still
    rw [still]
    rfl
  · rename_i counts
    have pos : 0 < t.value := UInt8.pos_iff_ne_zero.2 counts
    exact UInt8.toNat_sub_of_le _ _ (UInt8.le_iff_toNat_le.2 (UInt8.lt_iff_toNat_lt.1 pos))

namespace Machine

variable {m : Machine}

/-! ### The batch -/

/-- What a timer holds is what was put into it last, or the value `b` that it had. -/
def Accounts (c : Clock) (b : UInt8) (m : Machine) (past : List Deed) : Prop :=
  m.clock c = (loads c past).getLastD b

theorem tracks_accounts (c : Clock) (b : UInt8) : Tracks (Accounts c b) where
  still {m n past es} _ same h := by
    have kept : n.clock c = m.clock c := by cases c <;> simp only [clock, same.delay, same.sound]
    rw [Accounts, loads_append, loads_map_event, List.append_nil, kept, h]
  executed {m past op es} _ h := by
    rw [Accounts, loads_append, loads_executed, (touches_act_execute m op).clock c]
    cases set : op.sets? c with
    | none =>
      rw [Option.map_none, Option.toList_none, List.append_nil, Option.getD_none]
      exact h
    | some x =>
      rw [Option.map_some, Option.toList_some, List.getLastD_concat, Option.getD_some]

theorem clock_latchedBatch (alive : m.fault = none) (b : Beat) (c : Clock) :
    (latchedBatch (m.quota b) m b.keys).machine.clock c = m.held c (.beat b) := by
  have start : Accounts c (m.clock c) m [] := rfl
  have batch := (tracks_accounts c (m.clock c)).latchedBatch start alive b
  rw [Accounts, List.nil_append] at batch
  rw [held, deeds_of_alive alive, loads_append, loads_map_event, List.append_nil, batch]

/-! ### The end of a frame -/

/-- Whether the timers tick at the end of a frame whose batch led to `a`. -/
def Advance.ticking (a : Advance) : Bool := a.failure = none ∧ a.machine.ticks = true

theorem ticking_cycle (alive : m.fault = none) (keys : KeySet) :
    m.ticking (.beat (.cycle keys)) = (latchedBatch m.tuning.speed m keys).ticking := by
  have alive' := (fault_latchedBatch m.tuning.speed m keys).trans alive
  generalize batch : latchedBatch m.tuning.speed m keys = a at alive'
  rw [ticking, cycle_of_alive alive, batch, machine_endFrame alive', Advance.ticking]
  cases failed : a.failure <;> simp [Advance.settled, failed, alive', ticks]

theorem ticking_of_halted {f : Fault} (h : m.fault = some f) (b : Beat) :
    m.ticking (.beat b) = false := by
  cases b with
  | step keys => rfl
  | cycle keys => simp [ticking, cycle_of_halted h, h]

theorem ticking_of_other {a : Act} (other : ∀ keys, a ≠ .beat (.cycle keys)) :
    m.ticking a = false := by
  cases a with
  | beat b =>
    cases b with
    | cycle keys => exact (other keys rfl).elim
    | step keys => rfl
  | _ => rfl

theorem clock_endFrame {a : Advance} (alive : a.machine.fault = none) (c : Clock) :
    ((endFrame a).machine.clock c).toNat = (a.machine.clock c).toNat - a.ticking.toNat := by
  rw [machine_endFrame alive]
  cases failed : a.failure with
  | some f =>
    have frozen : a.ticking = false := by simp [Advance.ticking, failed]
    cases c <;> simp [clock, Advance.settled, failed, frozen]
  | none =>
    have same : a.ticking = a.machine.ticks := by simp [Advance.ticking, failed]
    rw [same]
    cases ticks : a.machine.ticks <;> cases c <;>
      simp [clock, Advance.settled, failed, alive, ticks, Timer.toNat_value_tick]

/-- **What a timer holds after anything that may be done to a machine.** -/
theorem clock_act (m : Machine) (a : Act) (c : Clock) :
    ((m.act a).clock c).toNat = (m.held c a).toNat - (m.ticking a).toNat := by
  obtain ⟨b, rfl⟩ | other := a.beat_or_other
  · cases alive : m.fault with
    | some f =>
      rw [ticking_of_halted alive, held, deeds_of_halted alive]
      simp only [act, turn_of_halted alive]
      rfl
    | none =>
      rw [← clock_latchedBatch alive b c]
      simp only [act, turn_of_alive alive]
      cases b with
      | cycle keys =>
        rw [ticking_cycle alive]
        exact clock_endFrame ((fault_latchedBatch _ m keys).trans alive) c
      | step keys =>
        rw [endTurn, machine_endStep]
        unfold Advance.settled
        split <;> rfl
  · have start : Accounts c (m.clock c) m [] := rfl
    have done := (tracks_accounts c (m.clock c)).other start other
    rw [ticking_of_other fun keys => other (.cycle keys), held]
    exact congrArg UInt8.toNat done

/-! ### Runs -/

theorem held_of_unset {a : Act} (h : loads c (m.deeds a) = []) : m.held c a = m.clock c := by
  rw [held, h]
  rfl

/-- **A timer that is not set counts the frames in which it ticks.** -/
theorem clock_run {acts : List Act} (unset : loads c (m.history acts) = []) :
    ((m.run acts).clock c).toNat = (m.clock c).toNat - m.tickings acts := by
  induction acts generalizing m with
  | nil => rfl
  | cons a acts ih =>
    rw [history, loads_append, List.append_eq_nil_iff] at unset
    obtain ⟨now, later⟩ := unset
    have rest : ((m.run (a :: acts)).clock c).toNat = _ := ih later
    rw [rest, clock_act, held_of_unset now, tickings, Nat.sub_sub]

theorem tickings_le (m : Machine) (acts : List Act) : m.tickings acts ≤ acts.length := by
  induction acts generalizing m with
  | nil => exact Nat.le_refl 0
  | cons a acts ih =>
    have rest := ih (m.act a)
    have first := Bool.toNat_le (m.ticking a)
    rw [tickings, List.length_cons]
    omega

/-! ### The tone -/

theorem plays_ports (es : List Event) :
    (Event.ports es).countP Event.plays = es.countP Event.plays := by
  rw [Event.ports, List.countP_filter]
  refine List.countP_congr fun e _ => ?_
  cases e <;> simp [Event.plays, Event.notice?]

theorem plays_of_not_late {e : Event} (h : e.late = false) : e.plays = false := by
  cases e with
  | play gain frequency => cases h
  | _ => rfl

/-- The tone plays in a frame whose tick leaves something in the sound timer. -/
theorem plays_cycle {keys : KeySet} (ticks : m.ticking (.beat (.cycle keys)) = true) :
    (m.cycle keys).events.countP Event.plays =
      if 0 < (m.held .sound (.beat (.cycle keys))).toNat - 1 then 1 else 0 := by
  cases alive : m.fault with
  | some f =>
    rw [ticking_of_halted alive] at ticks
    cases ticks
  | none =>
    have left := clock_act m (.beat (.cycle keys)) .sound
    rw [ticks] at left
    have sounds : 0 < (m.cycle keys).machine.sound.value ↔
        0 < (m.held .sound (.beat (.cycle keys))).toNat - 1 := by
      rw [UInt8.lt_iff_toNat_lt]
      exact left ▸ Iff.rfl
    have alive' : (m.cycle keys).machine.fault = none := by
      simp only [ticking, decide_eq_true_eq] at ticks
      exact ticks.1
    obtain ⟨shown, calls⟩ := ports_closing_cycle keys
      ((fault_latchedBatch m.tuning.speed m keys).trans alive)
    rw [← cycle_of_alive alive] at calls
    have plays : (m.cycle keys).events.countP Event.plays = _ :=
      countP_turn (fun _ h => plays_of_not_late h) alive (.cycle keys)
    rw [plays, ← plays_ports]
    simp only [quota, Beat.keys, calls, alive', true_and, sounds]
    have silent : (shown.toList.map Event.present).countP Event.plays = 0 := by
      cases shown <;> rfl
    rw [List.countP_cons, silent, Nat.zero_add]
    split <;> rfl

theorem ticking_of_tickings {a : Act} {acts : List Act}
    (all : m.tickings (a :: acts) = (a :: acts).length) :
    m.ticking a = true ∧ (m.act a).tickings acts = acts.length := by
  have rest := tickings_le (m.act a) acts
  rw [tickings, List.length_cons] at all
  cases ticks : m.ticking a with
  | true =>
    rw [ticks, Bool.toNat_true] at all
    exact ⟨rfl, by omega⟩
  | false =>
    rw [ticks, Bool.toNat_false] at all
    omega

/-- Frames, one after the other, with the keys that are down at their times. -/
def frames (keys : List KeySet) : List Act := keys.map fun k => .beat (.cycle k)

/-- **How long a tone lasts.**  The frames in which the timers tick and the sound timer is not set
again play a tone as long as the timer holds more than one. -/
theorem plays_frames {keys : KeySet} {later : List KeySet}
    (unset : loads .sound ((m.cycle keys).machine.history (frames later)) = [])
    (all : m.tickings (frames (keys :: later)) = (frames (keys :: later)).length) {i : Nat}
    {t : Turn} (h : (m.turns ((keys :: later).map .cycle))[i]? = some t) :
    t.events.countP Event.plays =
      if i < (m.held .sound (.beat (.cycle keys))).toNat - 1 then 1 else 0 := by
  -- By induction on the frames that follow; each takes one tick off what is left.
  obtain ⟨ticks, rest⟩ := ticking_of_tickings all
  induction later generalizing m keys i with
  | nil =>
    cases i with
    | zero =>
      cases h
      exact plays_cycle ticks
    | succ i => cases h
  | cons next later ih =>
    cases i with
    | zero =>
      cases h
      exact plays_cycle ticks
    | succ i =>
      obtain ⟨ticks', rest'⟩ := ticking_of_tickings rest
      have first := clock_act m (.beat (.cycle keys)) .sound
      have split := unset
      rw [frames, List.map_cons, history, loads_append, List.append_eq_nil_iff] at split
      obtain ⟨now, later'⟩ := split
      have kept := held_of_unset now
      have left : i < ((m.cycle keys).machine.held .sound (.beat (.cycle next))).toNat - 1 ↔
          i + 1 < (m.held .sound (.beat (.cycle keys))).toNat - 1 := by
        have taken : ((m.cycle keys).machine.clock .sound).toNat = _ := first
        rw [kept, taken, ticks, Bool.toNat_true]
        omega
      simp only [← left]
      exact ih later' rest h ticks' rest'

/-! ### The end of the sound -/

theorem append_ne_of_head {start t : String} (rest : String)
    (h : ∃ c, start.toList.head? = some c ∧ t.toList.head? ≠ some c) : start ++ rest ≠ t := by
  rintro rfl
  obtain ⟨c, first, other⟩ := h
  rw [String.toList_append, List.head?_append, first] at other
  exact other rfl

/-- No other line of that level has that wording. -/
theorem logs_finished (e : Event) : e.logs .debug "sound timer finished" = e.finishes := by
  cases e with
  | notice n =>
    cases n with
    | fontInstalled =>
      have other : Notice.fontInstalled.message ≠ "sound timer finished" :=
        append_ne_of_head _ ⟨'f', by decide, by decide⟩
      simp [Event.logs, Event.notice?, Event.finishes, other]
    | programInstalled size =>
      obtain ⟨rest, split⟩ :
          ∃ rest, (Notice.programInstalled size).message = "program of " ++ rest := by
        unfold Notice.message
        simp only [String.append_assoc]
        exact ⟨_, rfl⟩
      have other : (Notice.programInstalled size).message ≠ "sound timer finished" := by
        rw [split]
        exact append_ne_of_head rest ⟨'p', by decide, by decide⟩
      simp [Event.logs, Event.notice?, Event.finishes, other]
    | soundFinished => rfl
    | fetched | awaitingKey | keyStored | halted =>
      simp [Event.logs, Event.notice?, Event.finishes, Notice.level]
  | _ => rfl

theorem finishes_of_not_late {e : Event} (h : e.late = false) : e.finishes = false := by
  cases e with
  | notice n => cases n <;> first | rfl | cases h
  | _ => rfl

theorem finishes_closing_cycle (keys : KeySet) (a : Advance) :
    (closing (.cycle keys) a).countP Event.finishes =
      if a.ticking = true ∧ a.machine.clock .sound = 1 then 1 else 0 := by
  have shown (m : Machine) : m.presentFrame.events.countP Event.finishes = 0 := by
    rw [events_presentFrame]
    split <;> rfl
  have toned (m : Machine) : m.tone.finishes = false := by
    rw [tone_eq]
    split <;> rfl
  cases failed : a.failure with
  | some f =>
    have frozen : a.ticking = false := by simp [Advance.ticking, failed]
    rw [frozen]
    simp only [closing, failed, List.countP_append, List.countP_cons, shown]
    rfl
  | none =>
    have same : a.ticking = a.machine.ticks := by simp [Advance.ticking, failed]
    have ticked : a.machine.tickTimers.events.countP Event.finishes =
        if a.machine.ticks = true ∧ a.machine.sound.value = 1 then 1 else 0 := by
      rw [events_tickTimers]
      split <;> rfl
    rw [same]
    simp only [closing, failed, List.countP_append, List.countP_cons, shown, toned, ticked]
    rfl

theorem finishes_step (m : Machine) (keys : KeySet) :
    (m.step keys).events.countP Event.finishes = 0 := by
  cases alive : m.fault with
  | some f =>
    rw [step_of_halted alive]
    rfl
  | none =>
    have last := countP_turn (fun _ h => finishes_of_not_late h) alive (.step keys)
    refine last.trans ?_
    rw [closing_step]
    exact List.countP_map.trans (List.countP_eq_zero.2 fun _ _ => Bool.false_ne_true)

/-- **When the log tells that the sound is over.** -/
theorem logs_finished_said (m : Machine) (a : Act) :
    (m.said a).countP (Event.logs .debug "sound timer finished") =
      if m.ticking a = true ∧ m.held .sound a = 1 then 1 else 0 := by
  rw [funext logs_finished]
  obtain ⟨b, rfl⟩ | other := a.beat_or_other
  · cases b with
    | step keys => exact finishes_step m keys
    | cycle keys =>
      cases alive : m.fault with
      | some f =>
        rw [ticking_of_halted alive, said_of_halted alive]
        rfl
      | none =>
        rw [said, countP_turn (fun _ h => finishes_of_not_late h) alive, finishes_closing_cycle,
          ticking_cycle alive, ← clock_latchedBatch alive]
        rfl
  · rw [ticking_of_other fun keys => other (.cycle keys)]
    refine List.countP_eq_zero.2 fun e mem => ?_
    rw [finishes_of_not_late (late_said_of_other other mem)]
    exact Bool.false_ne_true

/-! ### The whole life -/

/-- **The timers.**  Whatever is done to a machine, be it a frame, a step, an instruction that its
owner has executed or an installation, is an act.

* After an act a timer holds what it held at the end of the batch, less one if the timers ticked,
  but never less than zero; and only frames make them tick.
* If a timer is not set in the course of some acts, it holds afterwards what it held before, less
  the number of frames in which the timers ticked, but never less than zero.
* If the sound timer holds `k` at the end of the batch of a frame and is not set afterwards, and if
  the timers tick in this frame and in all that follow, then exactly the first `k - 1` of these
  frames play a tone, each once.
* The line that tells that the sound is over is logged, once, in an act in which the sound timer
  ticks from one to zero, and in no other. -/
theorem timer_law (m : Machine) :
    (∀ a c, ((m.act a).clock c).toNat = (m.held c a).toNat - (m.ticking a).toNat ∧
      ((∀ keys, a ≠ .beat (.cycle keys)) → (m.act a).clock c = m.held c a)) ∧
    (∀ acts c, loads c (m.history acts) = [] →
      ((m.run acts).clock c).toNat = (m.clock c).toNat - m.tickings acts) ∧
    (∀ keys later, loads .sound ((m.cycle keys).machine.history (frames later)) = [] →
      m.tickings (frames (keys :: later)) = (frames (keys :: later)).length →
      ∀ i t, (m.turns ((keys :: later).map .cycle))[i]? = some t →
        t.events.countP Event.plays =
          if i < (m.held .sound (.beat (.cycle keys))).toNat - 1 then 1 else 0) ∧
    (∀ a, (m.said a).countP (Event.logs .debug "sound timer finished") =
      if m.ticking a = true ∧ m.held .sound a = 1 then 1 else 0) := by
  refine ⟨fun a c => ⟨clock_act m a c, fun other => ?_⟩, fun acts c => clock_run,
    fun keys later unset all i t => plays_frames unset all, logs_finished_said m⟩
  have left := clock_act m a c
  rw [ticking_of_other other] at left
  exact UInt8.toNat_inj.1 left

/-- A frame puts three into the sound timer; it and the one that follows play a tone, and the third
one says that the sound is over. -/
theorem timer_law_of_three :
    let m := (blank .standard (.ofFaces fun _ => 0)).run
      [.execute (.setByte 0 0xF6), .execute (.setByte 1 0x18), .execute (.setByte 2 0x10),
        .execute (.setByte 3 0x02), .execute (.storeRegisters 3), .execute (.jump 0),
        .execute (.setByte 6 3)]
    let n := (m.cycle .empty).machine
    let later := [KeySet.empty, .single 4]
    loads .sound (n.history (frames later)) = [] ∧
      m.tickings (frames (.empty :: later)) = (frames (.empty :: later)).length ∧
      m.held .sound (.beat (.cycle .empty)) = 3 ∧
      (∀ i t, (m.turns ((.empty :: later).map .cycle))[i]? = some t →
        t.events.countP Event.plays = if i < 3 - 1 then 1 else 0) ∧
      ((n.run (frames later)).clock .sound).toNat = 2 - 2 ∧
      ((n.run (frames [.empty])).said (.beat (.cycle (.single 4)))).countP
        (Event.logs .debug "sound timer finished") = 1 := by
  intro m n later
  have unset : loads .sound (n.history (frames later)) = [] := by decide +kernel
  have all : m.tickings (frames (.empty :: later)) = (frames (.empty :: later)).length := by
    decide +kernel
  have three : m.held .sound (.beat (.cycle .empty)) = 3 := by decide +kernel
  obtain ⟨-, -, tones, -⟩ := timer_law m
  obtain ⟨-, counts, -, -⟩ := timer_law n
  obtain ⟨-, -, -, lines⟩ := timer_law (n.run (frames [.empty]))
  refine ⟨unset, all, three, fun i t h => ?_, ?_, ?_⟩
  · have tone := tones .empty later unset all i t h
    rw [three] at tone
    exact tone
  · have two : (n.clock .sound).toNat = 2 := by decide +kernel
    have ticked : n.tickings (frames later) = 2 := by decide +kernel
    rw [counts (frames later) .sound unset, two, ticked]
  · have ends : (n.run (frames [.empty])).ticking (.beat (.cycle (.single 4))) = true ∧
        (n.run (frames [.empty])).held .sound (.beat (.cycle (.single 4))) = 1 := by
      decide +kernel
    exact (lines _).trans (if_pos ends)

end Machine

end Chip8
