import Mathlib.Data.List.DropRight
import Chip8.Proofs.Machine.Effects
import Chip8.Proofs.Machine.History

/-!
# The picture that is shown

The display never lags behind a frame (`Machine.picture_is_shown`).  A machine keeps a mark that its
picture is stale, and this mark tells the truth about its history: it is set exactly if an
instruction that draws was executed since a picture was shown last.  While it is not set, the
picture that was shown last is the one the machine has.

* `Machine.Shows` : what the mark says about the past.
* `Machine.Shows.executed`, `Machine.Shows.closing`, `Machine.Shows.act` : an instruction, the end
  of a turn and whatever is done to a machine keep it true.
-/

namespace Chip8

namespace Deed

/-- The picture that is shown, if one is. -/
def frame? : Deed → Option Frame
  | .event e => e.frame?
  | .executed .. => none

/-- Whether an instruction is executed that draws on the picture. -/
def paints : Deed → Bool
  | .executed _ op => op.paints
  | .event _ => false

/-- Whether no picture is shown. -/
def hides (d : Deed) : Bool := d.frame?.isNone

/-- Whether an instruction that draws was executed since a picture was shown last. -/
def unshown (past : List Deed) : Bool := (past.rtakeWhile hides).any paints

end Deed

/-- The picture that was shown last, a dark one if none was. -/
def Event.lastShown (seen : List Event) : Frame :=
  (seen.filterMap frame?).getLastD .dark

open Deed (unshown)
open Event (lastShown)

/-! ### Histories -/

variable {past l : List Deed}

theorem unshown_append (hidden : ∀ d ∈ l, d.hides = true) :
    unshown (past ++ l) = (unshown past || l.any Deed.paints) := by
  induction l using List.reverseRecOn with
  | nil => simp
  | append_singleton l d ih =>
    obtain ⟨before, last⟩ := List.forall_mem_append.1 hidden
    have earlier := ih before
    unfold unshown at earlier ⊢
    rw [← List.append_assoc, List.rtakeWhile_concat_pos _ _ _ (last d (List.mem_singleton_self d)),
      List.any_append, earlier, List.any_append, Bool.or_assoc]

theorem unshown_present (frame : Frame) :
    unshown (past ++ [.event (.present frame)]) = false := by
  have shown : ¬ (Deed.event (.present frame)).hides = true := Bool.false_ne_true
  unfold unshown
  rw [List.rtakeWhile_concat_neg _ _ _ shown]
  rfl

theorem lastShown_append (hidden : ∀ d ∈ l, d.hides = true) :
    lastShown ((past ++ l).filterMap Deed.event?) = lastShown (past.filterMap Deed.event?) := by
  have none : (l.filterMap Deed.event?).filterMap Event.frame? = [] := by
    refine List.filterMap_eq_nil_iff.2 fun e mem => ?_
    obtain ⟨d, inside, event⟩ := List.mem_filterMap.1 mem
    cases d with
    | executed => cases event
    | event e' =>
      obtain rfl := Option.some.inj event
      exact Option.isNone_iff_eq_none.1 (hidden _ inside)
  unfold lastShown
  rw [List.filterMap_append, List.filterMap_append, none, List.append_nil]

theorem lastShown_present (frame : Frame) :
    lastShown ((past ++ [Deed.event (.present frame)]).filterMap Deed.event?) = frame := by
  unfold lastShown
  rw [List.filterMap_append, List.filterMap_append]
  exact List.getLastD_concat

theorem hides_map_event {es : List Event} (h : es.filterMap Event.frame? = []) :
    ∀ d ∈ es.map Deed.event, d.hides = true := by
  intro d mem
  obtain ⟨e, inside, rfl⟩ := List.mem_map.1 mem
  exact Option.isNone_iff_eq_none.2 (List.filterMap_eq_nil_iff.1 h e inside)

theorem frame?_of_not_late {e : Event} (h : e.late = false) : e.frame? = none := by
  cases e with
  | present frame => cases h
  | _ => rfl

theorem frame?_of_late {es : List Event} (late : ∀ e ∈ es, e.late = false) :
    es.filterMap Event.frame? = [] :=
  List.filterMap_eq_nil_iff.2 fun e h => frame?_of_not_late (late e h)

theorem paints_map_event (es : List Event) : (es.map Deed.event).any Deed.paints = false := by
  simp [Deed.paints]

namespace Machine

/-- The mark of a stale picture tells whether something was drawn since a picture was shown last,
and if not, the picture is the one that was shown. -/
structure Shows (m : Machine) (past : List Deed) : Prop where
  stale : m.stale = unshown past
  frame : m.stale = false → m.frame = lastShown (past.filterMap Deed.event?)

variable {m n : Machine}

/-! ### What keeps the mark true -/

theorem Shows.hidden (h : Shows m past) (hidden : ∀ d ∈ l, d.hides = true)
    (stale : n.stale = (l.any Deed.paints || m.stale))
    (frame : l.any Deed.paints = false → n.frame = m.frame) : Shows n (past ++ l) where
  stale := by rw [stale, unshown_append hidden, h.stale, Bool.or_comm]
  frame clean := by
    rw [stale, Bool.or_eq_false_iff] at clean
    rw [lastShown_append hidden, frame clean.1, h.frame clean.2]

/-- Events that show no picture, while the machine keeps picture and mark. -/
theorem Shows.quiet (h : Shows m past) (es : List Event) (hidden : es.filterMap Event.frame? = [])
    (stale : n.stale = m.stale) (frame : n.frame = m.frame) :
    Shows n (past ++ es.map .event) := by
  refine h.hidden (hides_map_event hidden) ?_ fun _ => frame
  rw [paints_map_event, stale, Bool.false_or]

/-- **An instruction keeps the mark true.** -/
theorem Shows.executed (h : Shows m past) (op : Instruction) (es : List Event)
    (hidden : es.filterMap Event.frame? = []) :
    Shows (m.act (.execute op)) (past ++ .executed m op :: es.map .event) := by
  have touches := touches_act_execute m op
  have paints : (Deed.executed m op :: es.map .event).any Deed.paints = op.paints := by
    rw [List.any_cons, paints_map_event, Bool.or_false]
    rfl
  exact h.hidden (List.forall_mem_cons.2 ⟨rfl, hides_map_event hidden⟩) (paints ▸ touches.stale)
    (paints ▸ touches.frame)

theorem tracks_shows : Tracks Shows where
  still late same h := h.quiet _ (frame?_of_late late) same.stale same.frame
  executed late h := h.executed _ _ (frame?_of_late late)

theorem Shows.presentFrame (h : Shows m past) :
    Shows m.presentFrame.machine (past ++ m.presentFrame.events.map .event) := by
  cases stale : m.stale with
  | true =>
    simp only [Machine.presentFrame, stale, if_true]
    exact ⟨(unshown_present m.frame).symm, fun _ => (lastShown_present m.frame).symm⟩
  | false =>
    have same : m.presentFrame = ⟨m, []⟩ := by simp [Machine.presentFrame, stale]
    rw [same]
    exact h.quiet _ rfl rfl rfl

/-- The end of a turn keeps the mark true. -/
theorem Shows.closing {a : Advance} (h : Shows a.machine past) (b : Beat) :
    Shows (endTurn b a).machine (past ++ (closing b a).map .event) := by
  cases failed : a.failure with
  | some f =>
    cases b with
    | step keys =>
      simp only [endTurn, endStep, halt, Machine.closing, failed]
      exact h.quiet _ rfl rfl rfl
    | cycle keys =>
      have silent : Shows a.machine (past ++ [Event.silence].map .event) := h.quiet _ rfl rfl rfl
      have last : Shows (a.machine.presentFrame.machine.halt f).machine _ :=
        silent.presentFrame.quiet [.notice (.halted f)] rfl rfl rfl
      simpa only [endTurn, endFrame, Machine.closing, failed, List.map_append, List.map_cons,
        List.map_nil, List.cons_append, List.nil_append, List.append_assoc] using last
  | none =>
    cases b with
    | step keys =>
      simp only [endTurn, endStep, Machine.closing, failed]
      exact h.quiet _ rfl rfl rfl
    | cycle keys =>
      have ticked : Shows a.machine.tickTimers.machine
          (past ++ a.machine.tickTimers.events.map .event) :=
        h.quiet _ (frame?_tickTimers _) (by rw [machine_tickTimers]) (idle_tickTimers _).frame
      have toned : Shows a.machine.tickTimers.machine
          (past ++ a.machine.tickTimers.events.map .event ++
            [a.machine.tickTimers.machine.tone].map .event) :=
        ticked.quiet _ (List.filterMap_cons_none (frame?_tone _)) rfl rfl
      simpa only [endTurn, endFrame, Machine.closing, failed, List.map_append, List.map_cons,
        List.map_nil, List.cons_append, List.nil_append, List.append_assoc]
        using toned.presentFrame

/-- **Whatever is done to a machine keeps the mark true.** -/
theorem Shows.act (h : Shows m past) (a : Act) : Shows (m.act a) (past ++ m.deeds a) :=
  tracks_shows.act (fun b h => h.closing b) h a

theorem shows_of_built (h : Built m) : Shows m [] := by
  obtain ⟨tuning, dice, memory, rfl⟩ := blank_of_built h
  exact ⟨rfl, fun _ => rfl⟩

/-! ### The whole life -/

/-- Whether a picture is due at the end of a frame, before which `past` happened: an instruction
that draws was executed in the frame, or before it and after a picture was shown last. -/
def due (m : Machine) (past : List Deed) (keys : KeySet) : Bool :=
  unshown past || (m.deeds (.beat (.cycle keys))).any Deed.paints

theorem hides_nextDeeds (m : Machine) : ∀ d ∈ m.nextDeeds, d.hides = true := by
  refine List.forall_mem_append.2 ⟨fun d mem => ?_, hides_map_event (frame?_executeNext m)⟩
  obtain ⟨op, -, rfl⟩ := Option.map_eq_some_iff.1 (Option.mem_toList.1 mem)
  rfl

/-- A batch leaves the mark as it has to be for the picture to be shown when it is due. -/
theorem Shows.stale_latchedBatch (h : Shows m past) (alive : m.fault = none) (keys : KeySet) :
    (Machine.latchedBatch m.tuning.speed m keys).machine.stale = m.due past keys := by
  have after := (tracks_shows.latchedBatch h alive (.cycle keys)).stale
  have hidden : ∀ d ∈ (m.latchKeys keys).events.map Deed.event ++
      (m.fetched (.cycle keys)).flatMap nextDeeds, d.hides = true := by
    refine List.forall_mem_append.2 ⟨hides_map_event (frame?_latchKeys m keys), fun d mem => ?_⟩
    obtain ⟨k, -, mem⟩ := List.mem_flatMap.1 mem
    exact hides_nextDeeds k d mem
  rw [List.append_assoc, Beat.keys, unshown_append hidden] at after
  rw [due, deeds_of_alive alive, List.any_append, paints_map_event, Bool.or_false]
  exact after

/-- What a frame shows. -/
theorem Shows.cycle (h : Shows m past) (alive : m.fault = none) (keys : KeySet) :
    (m.cycle keys).machine.stale = false ∧
      (m.cycle keys).events.filterMap Event.frame? =
        if m.due past keys then [(m.cycle keys).machine.frame] else [] := by
  generalize batch : Machine.latchedBatch m.tuning.speed m keys = a
  have alive' : a.machine.fault = none := by
    rw [← batch]
    exact (fault_latchedBatch _ m keys).trans alive
  have silent : a.events.filterMap Event.frame? = [] := by
    rw [← batch]
    exact frame?_latchedBatch _ m keys
  have stale : a.settled.stale = m.due past keys := by
    rw [← h.stale_latchedBatch alive keys, batch]
    unfold Advance.settled
    split <;> rfl
  rw [cycle_of_alive alive, batch, frame?_endFrame silent, stale, (idle_endFrame a).frame,
    machine_endFrame alive']
  exact ⟨rfl, rfl⟩

theorem frame?_step (m : Machine) (keys : KeySet) :
    (m.step keys).events.filterMap Event.frame? = [] := by
  cases alive : m.fault with
  | some f =>
    rw [step_of_halted alive]
    rfl
  | none =>
    have last := filterMap_turn (fun _ h => frame?_of_not_late h) alive (.step keys)
    refine last.trans ?_
    rw [closing_step, List.filterMap_map]
    exact List.filterMap_eq_nil_iff.2 fun _ _ => rfl

/-- After frames alone the mark is never set. -/
theorem stale_run_of_frames (clean : m.stale = false) {acts : List Act}
    (frames : ∀ a ∈ acts, ∃ keys, a = .beat (.cycle keys)) : (m.run acts).stale = false := by
  induction acts generalizing m with
  | nil => exact clean
  | cons a acts ih =>
    obtain ⟨⟨keys, rfl⟩, later⟩ := List.forall_mem_cons.1 frames
    refine ih ?_ later
    cases alive : m.fault with
    | some f =>
      simp only [Machine.act, turn_of_halted alive]
      exact clean
    | none =>
      simp only [Machine.act, turn, cycle_of_alive alive]
      rw [machine_endFrame ((fault_latchedBatch _ m keys).trans alive)]

/-- **The display never lags behind a frame.**  Let `n` be what became of a machine that was built,
whatever was done to it, and `past` all that happened.

* While the picture of `n` is not marked as stale, it is the picture that was shown last.
* If `n` is not halted, a frame of it leaves the picture unmarked.  The frame shows the picture as
  it is in the end, once, if an instruction that draws was executed since a picture was shown last,
  and shows none otherwise.
* A frame of a halted machine shows no picture, and neither does anything else that may be done.
* If nothing but frames was done to the machine, the picture of `n` is the one shown last. -/
theorem picture_is_shown (built : Built m) (acts : List Act) :
    let n := m.run acts
    let past := m.history acts
    (n.stale = false → n.frame = lastShown (m.told acts)) ∧
    (n.fault = none → ∀ keys,
      (n.cycle keys).machine.stale = false ∧
        (n.cycle keys).events.filterMap Event.frame? =
          if n.due past keys then [(n.cycle keys).machine.frame] else []) ∧
    (∀ a, (∀ keys, a = .beat (.cycle keys) → n.fault ≠ none) →
      (n.said a).filterMap Event.frame? = []) ∧
    ((∀ a ∈ acts, ∃ keys, a = .beat (.cycle keys)) → n.frame = lastShown (m.told acts)) := by
  intro n past
  have shows : Shows n past :=
    history_invariant (fun _ _ a h => h.act a) (shows_of_built built) acts
  have last : n.stale = false → n.frame = lastShown (m.told acts) := by
    intro clean
    rw [← event?_history]
    exact shows.frame clean
  refine ⟨last, fun alive keys => shows.cycle alive keys, fun a other => ?_, fun frames => ?_⟩
  · obtain ⟨b, rfl⟩ | apart := a.beat_or_other
    · cases b with
      | step keys => exact frame?_step n keys
      | cycle keys =>
        obtain ⟨f, halted⟩ := Option.ne_none_iff_exists'.1 (other keys rfl)
        rw [said_of_halted halted]
        rfl
    · exact filterMap_said_of_other (fun _ h => frame?_of_not_late h) apart
  · have clean : m.stale = false := (shows_of_built built).stale
    exact last (stale_run_of_frames clean frames)

/-- A row of a sprite is drawn because the owner wants so, and a frame that meets a word that is no
instruction shows it. -/
theorem picture_is_shown_of_fault :
    let acts := [Act.execute (.setByte 0 0xF0), .execute (.storeRegisters 0),
      .execute (.draw 1 2 1), .execute (.jump 0x100)]
    let m := blank .standard (.ofFaces fun _ => 0)
    let n := m.run acts
    Built m ∧ n.fault = none ∧ n.due (m.history acts) .empty = true ∧
      (n.cycle .empty).status = .halted (.unknownOpcode 0 0x100) ∧
      (n.cycle .empty).events.filterMap Event.frame? = [(n.cycle .empty).machine.frame] := by
  intro acts m n
  have alive : n.fault = none := by decide +kernel
  have due : n.due (m.history acts) .empty = true := by decide +kernel
  obtain ⟨-, frame, -, -⟩ := picture_is_shown (.blank .standard (.ofFaces fun _ => 0)) acts
  obtain ⟨-, shown⟩ := frame alive .empty
  refine ⟨.blank _ _, alive, due, by decide +kernel, ?_⟩
  exact shown.trans (if_pos due)

end Machine

end Chip8
