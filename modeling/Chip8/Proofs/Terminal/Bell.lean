import Mathlib.Data.List.SplitBy
import Chip8.Proofs.Machine.Ports
import Chip8.Proofs.Terminal.Failures
import Chip8.Proofs.Terminal.KeyHold
import Chip8.Proofs.Terminal.Screen
import Chip8.Proofs.Text.Ascii

/-!
# The bell

A terminal is told over and over again that a tone goes on, and rings its bell only when the tone
starts.  The tone is told by a machine, frame by frame, so the bell rings once for each block of
frames that sound (`Terminal.bell_rings_once`).

* `Terminal.length_blocks_concat` : one more frame begins a block, or goes on with one.
* `Terminal.tone_run`, `Terminal.rings_output` : when a call rings the bell.
* `Terminal.filter_sends_cycle`, `Terminal.written_cycle` : what a frame of a machine sends.
* `Terminal.Follows.goThrough` : how often the bell has rung in the course of a run.
-/

namespace Chip8

/-- Whether a terminal does something about an event. -/
def Event.sends : Event → Bool
  | .play .. | .silence | .present _ => true
  | .poll | .draw _ | .notice _ => false

/-- Whether a machine that has run a frame sounds: it has met no fault, and something is left in its
sound timer. -/
def Machine.sounds (m : Machine) : Bool := m.fault = none ∧ 0 < m.sound.value

namespace Terminal

/-! ### Blocks of frames -/

/-- The maximal blocks of frames that sound. -/
def blocks (tones : List Bool) : List (List Bool) :=
  (tones.splitBy (· == ·)).filter (·.contains true)

theorem exists_eq_append_replicate (tones : List Bool) (b : Bool) :
    ∃ front n, tones = front ++ List.replicate n b ∧ front.getLast? ≠ some b := by
  induction tones using List.reverseRecOn with
  | nil => exact ⟨[], 0, rfl, nofun⟩
  | append_singleton tones c ih =>
    by_cases same : c = b
    · obtain ⟨front, n, rfl, ends⟩ := ih
      refine ⟨front, n + 1, ?_, ends⟩
      rw [List.replicate_succ', List.append_assoc, same]
    · refine ⟨tones ++ [c], 0, (List.append_nil _).symm, ?_⟩
      rw [List.getLast?_concat]
      exact fun h => same (Option.some.inj h)

/-- Frames that all sound, or are all silent, behind some frame that is different. -/
theorem blocks_append_replicate {front : List Bool} {b : Bool} (ends : front.getLast? ≠ some b)
    (n : Nat) : (blocks (front ++ List.replicate (n + 1) b)).length =
      (blocks front).length + if b then 1 else 0 := by
  have apart : ∀ a ∈ front.getLast?, (a == b) = false := by
    intro a last
    refine beq_false_of_ne fun same => ends ?_
    rw [Option.mem_def.1 last, same]
  have alike : (b :: List.replicate n b).splitBy (· == ·) = [b :: List.replicate n b] := by
    refine List.splitBy_of_isChain nofun ?_
    rw [← List.replicate_succ]
    exact List.isChain_replicate_of_rel (n + 1) (beq_self_eq_true b)
  rw [blocks, blocks, List.replicate_succ, List.splitBy_append_cons _ apart, alike,
    List.filter_append, List.length_append]
  cases b <;> simp

/-- **One more frame begins a block**, if it sounds and the one before it does not. -/
theorem length_blocks_concat (tones : List Bool) (b : Bool) :
    (blocks (tones ++ [b])).length =
      (blocks tones).length + if b = true ∧ tones.getLast? ≠ some true then 1 else 0 := by
  obtain ⟨front, n, rfl, ends⟩ := exists_eq_append_replicate tones b
  rw [List.append_assoc, ← List.replicate_succ', blocks_append_replicate ends]
  cases n with
  | zero =>
    rw [List.replicate_zero, List.append_nil]
    cases b with
    | false => rfl
    | true => rw [if_pos rfl, if_pos ⟨rfl, ends⟩]
  | succ n =>
    have goes : (front ++ List.replicate (n + 1) b).getLast? = some b := by
      rw [List.replicate_succ', ← List.append_assoc, List.getLast?_concat]
    rw [blocks_append_replicate ends, goes]
    cases b <;> simp

example : (blocks [true, true, false, true]).length = 2 := by decide

/-! ### Calls for the tone -/

/-- What a moment tells of the tone, if it tells something: whether it goes on. -/
def Moment.tone? : Moment → Option Bool
  | .call (.play _ _) => some true
  | .call .silence => some false
  | _ => none

/-- What was told of the tone last. -/
def lastTone? (life : List Moment) : Option Bool := (life.filterMap Moment.tone?).getLast?

/-- How often bytes ring the bell. -/
def rings (bytes : ByteArray) : Nat := bytes.data.toList.count 0x07

theorem rings_append (bytes more : ByteArray) :
    rings (bytes ++ more) = rings bytes + rings more := by
  rw [rings, ByteArray.data_append, Array.toList_append, List.count_append]
  rfl

theorem rings_picture (f : Frame) : rings (Picture.text f).toUTF8 = 0 := by
  refine List.count_eq_zero.2 (Ascii.not_mem_bytes (by decide) fun c mem same => ?_)
  have ring : c = '\x07' := Char.toNat_inj.1 same
  exact absurd (ring ▸ Screen.spells_text mem) (by decide)

theorem rings_join (fs : List Frame) : rings (String.join (fs.map Picture.text)).toUTF8 = 0 := by
  induction fs with
  | nil => rfl
  | cons f fs ih =>
    rw [List.map_cons, String.join_cons, Pipe.toUTF8_append, rings_append, rings_picture, ih]

section

variable (t : Terminal)

/-- Only calls for the tone start and end it. -/
theorem tone_happen (x : Moment) :
    (t.happen x).mute = t.mute ∧ (t.happen x).sounding = x.tone?.getD t.sounding := by
  rw [happen_eq]
  cases x with
  | input i =>
    obtain same | quits | ⟨k, pressed, holds⟩ := take_cases i
    · rw [aside, same]
      exact ⟨rfl, rfl⟩
    · rw [aside, quits]
      exact ⟨rfl, rfl⟩
    · rw [aside, holds]
      exact ⟨rfl, rfl⟩
  | tick =>
    simp only [aside, age]
    split <;> exact ⟨rfl, rfl⟩
  | call e => cases e <;> exact ⟨rfl, rfl⟩
  | collect => exact ⟨rfl, rfl⟩

theorem lastTone?_concat (life : List Moment) (x : Moment) :
    lastTone? (life ++ [x]) = x.tone?.or (lastTone? life) :=
  Past.getLast?_filterMap_concat Moment.tone?

/-- **A tone goes on if the last call for it said so.** -/
theorem tone_run (life : List Moment) :
    (t.run life).mute = t.mute ∧
      (t.run life).sounding = (lastTone? life).getD t.sounding := by
  induction life using List.reverseRecOn with
  | nil => exact ⟨rfl, rfl⟩
  | append_singleton life x ih =>
    obtain ⟨mute, sounding⟩ := (t.run life).tone_happen x
    rw [run_concat, lastTone?_concat, mute, sounding, ih.1, ih.2]
    refine ⟨rfl, ?_⟩
    cases x.tone? <;> rfl

/-- A moment shows a picture, or it rings the bell if a tone starts that is not muted. -/
theorem output_eq_text_or_bell (x : Moment) :
    (∃ f, x.tone? = none ∧ t.output x = some (Picture.text f)) ∨
      t.output x =
        if x.tone? = some true ∧ t.sounding = false ∧ t.mute = false then some bell else none := by
  cases x with
  | call e =>
    cases e with
    | present f => exact .inl ⟨f, rfl, rfl⟩
    | play gain frequency =>
      refine .inr ?_
      show (if t.sounding || t.mute then none else some bell) = _
      cases t.sounding <;> cases t.mute <;> rfl
    | poll | draw | silence | notice => exact .inr rfl
  | input | tick | collect => exact .inr rfl

theorem getD_output_tone (on : Bool) (gain frequency : UInt32) :
    (t.output (.call (if on then .play gain frequency else .silence))).getD "" =
      if on = true ∧ t.sounding = false ∧ t.mute = false then bell else "" := by
  cases on with
  | false => rfl
  | true =>
    simp only [if_true, true_and, output]
    cases t.sounding <;> cases t.mute <;> rfl

/-- **When a moment rings the bell.** -/
theorem rings_output (x : Moment) :
    rings ((t.output x).getD "").toUTF8 =
      if x.tone? = some true ∧ t.sounding = false ∧ t.mute = false then 1 else 0 := by
  obtain ⟨f, other, sent⟩ | sent := t.output_eq_text_or_bell x
  · rw [if_neg fun h => Option.some_ne_none _ (h.1.symm.trans other), sent, Option.getD_some,
      rings_picture]
  · rw [sent]
    split
    · decide
    · decide

end

/-! ### What a frame sends -/

theorem filter_sends_ports (es : List Event) :
    (Event.ports es).filter Event.sends = es.filter Event.sends := by
  rw [Event.ports, List.filter_filter]
  refine List.filter_congr fun e _ => ?_
  cases e <;> rfl

theorem not_sends_of_not_late {e : Event} (h : e.late = false) : e.sends = false := by
  cases e with
  | poll | draw | notice => rfl
  | play | silence | present => cases h

/-- What a terminal does nothing about neither shows a picture nor tells of the tone. -/
theorem idle_of_not_sends {e : Event} (h : e.sends = false) :
    e.frame? = none ∧ (Moment.call e).tone? = none ∧
      ∀ t : Terminal, t.happen (.call e) = t ∧ t.output (.call e) = none := by
  cases e with
  | poll | draw | notice => exact ⟨rfl, rfl, fun _ => ⟨rfl, rfl⟩⟩
  | play | silence | present => cases h

theorem sounds_iff {m : Machine} : m.sounds = true ↔ m.fault = none ∧ 0 < m.sound.value :=
  decide_eq_true_iff

theorem sounds_of_fault {m : Machine} {f : Fault} (h : m.fault = some f) : m.sounds = false := by
  rw [Machine.sounds, h]
  rfl

/-- Of a frame a terminal receives what it tells the tone, and then its picture. -/
theorem filter_sends_cycle {m : Machine} (alive : m.fault = none) (keys : KeySet) :
    let n := (m.cycle keys).machine
    ∃ shown : Option Frame, (m.cycle keys).events.filter Event.sends =
      (if n.sounds then .play n.tuning.gain n.tuning.frequency else .silence) ::
        shown.toList.map .present := by
  intro n
  have left : n = (Machine.endFrame (Machine.latchedBatch m.tuning.speed m keys)).machine := by
    rw [← Machine.cycle_of_alive alive]
  obtain ⟨shown, closed⟩ := Machine.ports_closing_cycle keys
    ((Machine.fault_latchedBatch m.tuning.speed m keys).trans alive)
  refine ⟨shown, ?_⟩
  have ending : (m.cycle keys).events.filter Event.sends =
      (Machine.closing (.cycle keys) (Machine.latchedBatch m.tuning.speed m keys)).filter
        Event.sends :=
    Machine.filter_turn (fun _ => not_sends_of_not_late) alive (.cycle keys)
  have all : (shown.toList.map Event.present).filter Event.sends = shown.toList.map .present :=
    List.filter_eq_self.2 fun e mem => by
      obtain ⟨f, -, rfl⟩ := List.mem_map.1 mem
      rfl
  rw [ending, ← filter_sends_ports, closed, ← left, List.filter_cons, all, if_pos]
  · simp only [sounds_iff]
  · split <;> rfl

/-- A terminal does nothing about the other events. -/
theorem written_filter_sends (t : Terminal) (es : List Event) :
    t.written (es.map .call) = t.written ((es.filter Event.sends).map .call) := by
  induction es generalizing t with
  | nil => rfl
  | cons e es ih =>
    rw [List.map_cons, written, ih]
    cases sends : e.sends with
    | true =>
      rw [List.filter_cons_of_pos sends]
      rfl
    | false =>
      obtain ⟨-, -, idle⟩ := idle_of_not_sends sends
      obtain ⟨same, silent⟩ := idle t
      rw [List.filter_cons_of_neg (ne_true_of_eq_false sends), same, silent, Option.getD_none,
        String.empty_append]

theorem written_presents (t : Terminal) (fs : List Frame) :
    t.written (fs.map fun f => .call (.present f)) = String.join (fs.map Picture.text) := by
  induction fs generalizing t with
  | nil => rfl
  | cons f fs ih =>
    have sent : t.output (.call (.present f)) = some (Picture.text f) := rfl
    rw [List.map_cons, written, ih, sent, Option.getD_some, List.map_cons, String.join_cons]

theorem filterMap_filter_sends {α : Type} {g : Event → Option α}
    (idle : ∀ e, e.sends = false → g e = none) (es : List Event) :
    (es.filter Event.sends).filterMap g = es.filterMap g := by
  rw [List.filterMap_filter]
  refine List.filterMap_congr fun e _ => ?_
  cases sends : e.sends with
  | true => rfl
  | false => exact (idle e sends).symm

/-- **What a frame of a machine sends**: the bell, if a tone starts that is not muted, and then the
picture, if one is shown. -/
theorem written_cycle (t : Terminal) (m : Machine) (keys : KeySet) :
    let n := (m.cycle keys).machine
    t.written ((m.cycle keys).events.map .call) =
      (if n.sounds = true ∧ t.sounding = false ∧ t.mute = false then bell else "") ++
        String.join (((m.cycle keys).events.filterMap Event.frame?).map Picture.text) := by
  intro n
  cases alive : m.fault with
  | some f =>
    have same : m.cycle keys = ⟨m, [], .halted f⟩ := Machine.cycle_of_halted alive
    simp only [n, same, sounds_of_fault alive]
    rfl
  | none =>
    obtain ⟨shown, sends⟩ := filter_sends_cycle alive keys
    have pictures : (m.cycle keys).events.filterMap Event.frame? = shown.toList := by
      rw [← filterMap_filter_sends fun _ idle => (idle_of_not_sends idle).1, sends,
        List.filterMap_cons_none (by split <;> rfl), List.filterMap_map]
      exact List.filterMap_some
    rw [written_filter_sends, sends, pictures, List.map_cons, written, getD_output_tone,
      List.map_map]
    exact congrArg _ (written_presents _ shown.toList)

theorem rings_written_cycle (t : Terminal) (m : Machine) (keys : KeySet) :
    rings (t.written ((m.cycle keys).events.map .call)).toUTF8 =
      if (m.cycle keys).machine.sounds = true ∧ t.sounding = false ∧ t.mute = false then 1
        else 0 := by
  rw [written_cycle, Pipe.toUTF8_append, rings_append, rings_join, Nat.add_zero]
  split
  · decide
  · decide

/-- What the last call of a frame for the tone says. -/
theorem lastTone?_cycle {m : Machine} (alive : m.fault = none) (keys : KeySet) :
    lastTone? ((m.cycle keys).events.map .call) = some (m.cycle keys).machine.sounds := by
  obtain ⟨shown, sends⟩ := filter_sends_cycle alive keys
  have pictures : (shown.toList.map Event.present).filterMap (fun e => (Moment.call e).tone?) =
      [] := by
    rw [List.filterMap_map]
    exact List.filterMap_eq_nil_iff.2 fun _ _ => rfl
  rw [lastTone?, List.filterMap_map, Function.comp_def,
    ← filterMap_filter_sends fun _ idle => (idle_of_not_sends idle).2.1, sends]
  cases (m.cycle keys).machine.sounds with
  | true => exact congrArg (fun rest => (true :: rest).getLast?) pictures
  | false => exact congrArg (fun rest => (false :: rest).getLast?) pictures

/-! ### Runs -/

/-- Something that a machine and its terminal go through. -/
inductive Doing where
  /-- The machine runs a frame. -/
  | frame
  /-- An input arrives. -/
  | input (i : Input)
  /-- A frame goes by for the keys that are held. -/
  | tick
  /-- The first failure is taken. -/
  | collect

/-- The move that it is. -/
def Doing.move : Doing → Move
  | frame => .act fun keys => .beat (.cycle keys)
  | input i => .moment (.input i)
  | tick => .moment .tick
  | collect => .moment .collect

/-- A machine and its terminal after they went through something. -/
def goThrough (s : Machine × Terminal) (ds : List Doing) : Machine × Terminal :=
  drive s (ds.map Doing.move)

/-- For each frame of a run, whether the machine sounds that has run it. -/
def tones (s : Machine × Terminal) : List Doing → List Bool
  | [] => []
  | .frame :: ds => (goThrough s [.frame]).1.sounds :: tones (goThrough s [.frame]) ds
  | d :: ds => tones (goThrough s [d]) ds

theorem goThrough_concat (s : Machine × Terminal) (ds : List Doing) (d : Doing) :
    goThrough s (ds ++ [d]) = move (goThrough s ds) d.move := by
  rw [goThrough, drive, List.map_append, List.foldl_append]
  rfl

theorem tones_concat (s : Machine × Terminal) (ds : List Doing) (d : Doing) :
    tones s (ds ++ [d]) = tones s ds ++ tones (goThrough s ds) [d] := by
  induction ds generalizing s with
  | nil => rfl
  | cons x ds ih => cases x <;> simp only [List.cons_append, tones, ih] <;> rfl

/-- The invariant of a run: how often the bell has rung, and whether the next tone rings it. -/
structure Follows (mute : Bool) (before : ByteArray) (tones : List Bool) (s : Machine × Terminal) :
    Prop where
  unlimited : s.2.pipe.room = none
  muted : s.2.mute = mute
  sounding : s.2.sounding = true ↔ tones.getLast? = some true
  halted : s.1.fault ≠ none → s.2.sounding = false
  rung : rings s.2.pipe.taken = rings before + if mute then 0 else (blocks tones).length

section

variable {s : Machine × Terminal} {mute : Bool} {before : ByteArray} {tones : List Bool}

theorem Follows.sounding_eq_false_iff (h : Follows mute before tones s) :
    s.2.sounding = false ↔ tones.getLast? ≠ some true := by
  rw [← Bool.not_eq_true, h.sounding]

/-- What is not a call neither rings the bell nor changes the tone. -/
theorem Follows.moment (h : Follows mute before tones s) {x : Moment}
    (silent : ∀ t : Terminal, t.output x = none) (still : x.tone? = none) :
    Follows mute before tones (move s (.moment x)) := by
  obtain ⟨muted, sounding⟩ := s.2.tone_happen x
  obtain ⟨unlimited, taken⟩ := taken_run_of_unlimited h.unlimited [x]
  have nothing : s.2.written [x] = "" := by rw [written, silent]; rfl
  rw [still, Option.getD_none] at sounding
  rw [nothing] at taken
  refine ⟨unlimited, muted.trans h.muted, sounding ▸ h.sounding,
    fun fault => sounding.trans (h.halted fault), ?_⟩
  rw [← h.rung]
  exact (congrArg rings taken).trans (rings_append _ _)

/-- **A frame rings the bell if it begins a block.** -/
theorem Follows.frame (h : Follows mute before tones s) :
    let next := goThrough s [.frame]
    Follows mute before (tones ++ [next.1.sounds]) next := by
  intro next
  let calls := (s.1.cycle s.2.down).events.map Moment.call
  obtain ⟨unlimited, taken⟩ := taken_run_of_unlimited h.unlimited calls
  obtain ⟨muted, sounding⟩ := s.2.tone_run calls
  have tone : next.2.sounding = next.1.sounds := by
    cases alive : s.1.fault with
    | some f =>
      have same : s.1.cycle s.2.down = ⟨s.1, [], .halted f⟩ := Machine.cycle_of_halted alive
      have still : next = s := by
        show ((s.1.cycle s.2.down).machine, s.2.run calls) = s
        simp only [calls, same]
        rfl
      rw [still, h.halted (alive ▸ nofun), sounds_of_fault alive]
    | none => exact sounding.trans (congrArg (·.getD s.2.sounding) (lastTone?_cycle alive _))
  refine ⟨unlimited, muted.trans h.muted, ?_, fun fault => ?_, ?_⟩
  · rw [tone, List.getLast?_concat, Option.some_inj]
  · obtain ⟨f, fault⟩ := Option.ne_none_iff_exists'.1 fault
    rw [tone, sounds_of_fault fault]
  · have rung : rings next.2.pipe.taken = rings s.2.pipe.taken + _ :=
      (congrArg rings taken).trans ((rings_append _ _).trans
        (congrArg _ (rings_written_cycle s.2 s.1 s.2.down)))
    rw [rung, h.rung, length_blocks_concat, Nat.add_assoc, h.muted]
    simp only [h.sounding_eq_false_iff]
    cases mute with
    | true => simp
    | false =>
      simp only [and_true, Bool.false_eq_true, if_false]
      rfl

theorem Follows.taken_frame (h : Follows mute before tones s) :
    let next := goThrough s [.frame]
    next.2.pipe.taken = s.2.pipe.taken ++
      ((if next.1.sounds = true ∧ tones.getLast? ≠ some true ∧ mute = false then bell else "") ++
        String.join (((s.1.cycle s.2.down).events.filterMap Event.frame?).map
          Picture.text)).toUTF8 := by
  intro next
  obtain ⟨-, taken⟩ := taken_run_of_unlimited h.unlimited
    ((s.1.cycle s.2.down).events.map .call)
  refine taken.trans ?_
  rw [written_cycle, h.muted]
  simp only [h.sounding_eq_false_iff]
  rfl

/-- **How often the bell has rung in the course of a run.** -/
theorem Follows.goThrough (h : Follows mute before [] s) (ds : List Doing) :
    Follows mute before (Terminal.tones s ds) (goThrough s ds) := by
  -- By induction on the run, whose last doing is a frame or rings nothing.
  induction ds using List.reverseRecOn with
  | nil => exact h
  | append_singleton ds d ih =>
    rw [tones_concat]
    cases d with
    | frame =>
      rw [goThrough_concat]
      exact ih.frame
    | input | tick | collect =>
      rw [goThrough_concat]
      show Follows mute before (Terminal.tones s ds ++ []) _
      rw [List.append_nil]
      exact ih.moment (fun _ => rfl) rfl

theorem follows_opened (m : Machine) (before : ByteArray) (mute tells : Bool) :
    Follows mute before [] (m, opened ⟨none, false, 0, before⟩ mute tells) where
  unlimited := rfl
  muted := rfl
  sounding := ⟨nofun, nofun⟩
  halted _ := rfl
  rung := by cases mute <;> rfl

end

/-! ### The law -/

/-- **One ring of the bell for each tone.**  Let a machine run on a new terminal over a pipe without
a bound that has taken some bytes before.

* Whatever they go through, frames of the machine, inputs, frames that go by for the held keys and
  failures that are taken: unless it is muted, the bell has rung once for each maximal block of
  frames after which the machine sounds, and it never rings if it is muted.
* What a frame sends is its picture, if it shows one, and before it the bell, if the frame begins a
  block and the bell is not muted.
* Whatever happens to the terminal otherwise, calls for the tone in any order among it: the bell
  rings in a call to play if no call for the tone came before it, or if the last one was to be
  silent, and nothing but the bell is sent then.  It rings at no other time. -/
theorem bell_rings_once (m : Machine) (before : ByteArray) (mute tells : Bool) :
    let t := opened ⟨none, false, 0, before⟩ mute tells
    (∀ ds,
      let s := goThrough (m, t) ds
      let past := tones (m, t) ds
      let next := goThrough (m, t) (ds ++ [.frame])
      let shown := (s.1.cycle s.2.down).events.filterMap Event.frame?
      rings s.2.pipe.taken = rings before + (if mute then 0 else (blocks past).length) ∧
        next.2.pipe.taken = s.2.pipe.taken ++
          ((if next.1.sounds = true ∧ past.getLast? ≠ some true ∧ mute = false then bell else "") ++
            String.join (shown.map Picture.text)).toUTF8) ∧
    ∀ life,
      let s := t.run life
      (∀ gain frequency, (s.happen (.call (.play gain frequency))).pipe.taken = s.pipe.taken ++
        (if lastTone? life ≠ some true ∧ mute = false then bell else "").toUTF8) ∧
      ∀ x, rings (s.happen x).pipe.taken = rings s.pipe.taken +
        if x.tone? = some true ∧ lastTone? life ≠ some true ∧ mute = false then 1 else 0 := by
  intro t
  refine ⟨fun ds => ?_, fun life => ?_⟩
  · intro s past next shown
    have follows := (follows_opened m before mute tells).goThrough ds
    refine ⟨follows.rung, ?_⟩
    have moved : next = goThrough s [.frame] := goThrough_concat ..
    rw [moved]
    exact follows.taken_frame
  · intro s
    obtain ⟨unlimited, -⟩ := taken_run_of_unlimited (t := t) rfl life
    obtain ⟨muted, sounding⟩ := t.tone_run life
    have starts : s.sounding = false ↔ lastTone? life ≠ some true := by
      rw [← Bool.not_eq_true, sounding]
      cases lastTone? life <;> simp [t, opened, «over»]
    have taken (x : Moment) : (s.happen x).pipe.taken =
        s.pipe.taken ++ ((s.output x).getD "").toUTF8 := by
      have one := (taken_run_of_unlimited unlimited [x]).2
      rwa [written, written, String.append_empty] at one
    refine ⟨fun gain frequency => ?_, fun x => ?_⟩
    · have sent := s.getD_output_tone true gain frequency
      simp only [if_true, true_and] at sent
      rw [taken, sent, muted]
      simp only [starts]
      rfl
    · rw [taken, rings_append, rings_output, muted]
      simp only [starts]
      rfl

end Terminal

end Chip8
