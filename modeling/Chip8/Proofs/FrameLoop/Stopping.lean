import Mathlib.Data.Nat.Find
import Mathlib.Logic.Function.Iterate
import Chip8.FrameLoop
import Chip8.Proofs.Log.Writing
import Chip8.Proofs.Machine.Runs

/-!
# Where the frame loop stops

In each frame there are five reasons to stop, which are looked for in turn.  The loop stops in the
first frame in which there is one, and until then it does nothing but run whole frames.

* `FrameLoop.completed` : what a whole frame makes of a loop.
* `FrameLoop.reason?` : the reason to stop that a frame finds first.
* `FrameLoop.round_eq` : a frame stops the loop for that reason, or is completed.
* `FrameLoop.runFrom_add` : frames without a reason to stop are completed one after the other.
* `FrameLoop.machine_ahead` : what the machine has done meanwhile.
* `FrameLoop.run_stops_first` : where a run stops, in which state, and why.
-/

namespace Chip8

/-- The fault of a frame or a step that ended with one. -/
def Status.fault? : Status → Option Fault
  | .halted fault => some fault
  | .done | .blocked => none

/-- Counts of how often input was taken in and how often an output failure was asked for: these
operations count, and no other. -/
structure Surroundings.Counts {σ : Type} (s : Surroundings σ) (pumps takes : σ → ℕ) : Prop where
  pump : ∀ a, pumps (s.pump a).1 = pumps a + 1 ∧ takes (s.pump a).1 = takes a
  serve : ∀ a e, pumps (s.serve a e).1 = pumps a ∧ takes (s.serve a e).1 = takes a
  takeFailure : ∀ a, pumps (s.takeFailure a).1 = pumps a ∧ takes (s.takeFailure a).1 = takes a + 1

/-- A property of surroundings that none of these operations takes away. -/
structure Surroundings.Keeps {σ : Type} (s : Surroundings σ) (P : σ → Prop) : Prop where
  pump : ∀ a, P a → P (s.pump a).1
  serve : ∀ a e, P a → P (s.serve a e).1
  takeFailure : ∀ a, P a → P (s.takeFailure a).1

namespace Surroundings

variable {σ : Type} (s : Surroundings σ)

/-- The surroundings when they have answered the calls among events, one after the other: all but
the notices. -/
def answered (a : σ) (es : List Event) : σ :=
  (es.filter fun e => e.notice?.isNone).foldl (fun a e => (s.serve a e).1) a

/-- What is logged of events, in their order: a notice, or what a call is answered with. -/
def recorded (a : σ) : List Event → List Log.Record
  | [] => []
  | e :: es =>
    match e.notice? with
    | some n => n.record :: recorded a es
    | none => (s.serve a e).2 ++ recorded (s.serve a e).1 es

end Surroundings

namespace FrameLoop

variable {σ : Type} (s : Surroundings σ) (limit : Option ℕ) (l : FrameLoop σ)

/-! ### The parts of a frame -/

/-- The loop when input was taken in. -/
def pumped : FrameLoop σ := { l with around := (s.pump l.around).1 }

/-- The keys that the machine sees in a frame. -/
def snapshot : KeySet := s.keys (l.pumped s).around

/-- What the machine does in a frame. -/
def frameTurn : Turn := l.machine.cycle (l.snapshot s)

/-- The loop when input was taken in and the machine has run: its calls were answered, and what
there was to log was logged. -/
def cycled : FrameLoop σ :=
  { l with
    machine := (l.frameTurn s).machine
    around := s.answered (l.pumped s).around (l.frameTurn s).events
    journal := l.journal.logAll (s.recorded (l.pumped s).around (l.frameTurn s).events) }

/-- The loop when an output failure was asked for too. -/
def probed : FrameLoop σ :=
  { l.cycled s with around := (s.takeFailure (l.cycled s).around).1 }

/-- The loop after a whole frame. -/
def completed : FrameLoop σ := { l.probed s with frames := l.frames + 1 }

/-- The loop after `n` whole frames. -/
def ahead (n : ℕ) : FrameLoop σ := (completed s)^[n] l

/-! ### Reasons to stop -/

/-- Why a frame stops the loop, if it does: the first reason that is found, of the frame limit, a
failure to take input in, the wish to quit, a fault of the machine, and an output failure. -/
def reason? : Option (Except RunFailure Ending) :=
  (if limit.any (· ≤ l.frames) then some (.ok .frameLimit) else none) <|>
  (s.pump l.around).2.map (fun failure => .error (.input failure)) <|>
  (if s.quitting (l.pumped s).around then some (.ok .quit) else none) <|>
  (l.frameTurn s).status.fault?.map (fun fault => .error (.machine fault)) <|>
  (s.takeFailure (l.cycled s).around).2.map (fun failure => .error (.output failure))

/-- A record of the loop. -/
def remark (message : String) : Log.Record :=
  ⟨.info, some "plum8_host::runner", "plum8_host::runner", message⟩

/-- The loop when it has logged a record of its own. -/
def closed (message : String) : FrameLoop σ := { l with journal := l.journal.log (remark message) }

/-- The loop when a frame has stopped it. -/
def stopped : Except RunFailure Ending → FrameLoop σ
  | .ok .frameLimit => l.closed ("stopping after " ++ toString l.frames ++ " frames")
  | .error (.input _) => l.pumped s
  | .ok .quit => (l.pumped s).closed ("quit requested after " ++ toString l.frames ++ " frames")
  | .error (.machine _) => l.cycled s
  | .error (.output _) => l.probed s

/-- What is handed on is answered and logged, event by event. -/
theorem foldl_deliver (es : List Event) :
    es.foldl (deliver s) l =
      { l with
        around := s.answered l.around es
        journal := l.journal.logAll (s.recorded l.around es) } := by
  induction es generalizing l with
  | nil => rfl
  | cons e es ih =>
    rw [List.foldl_cons, ih]
    cases e with
    | notice n => rfl
    | _ =>
      simp only [deliver, Surroundings.answered, Surroundings.recorded, Log.Journal.logAll,
        Event.notice?, List.foldl_append]
      rfl

/-- The second half of a frame, when input was taken in. -/
theorem present_pumped : present s (l.pumped s) =
    match (l.frameTurn s).status.fault?, (s.takeFailure (l.cycled s).around).2 with
    | some fault, _ => .stop (l.cycled s) (.error (.machine fault))
    | none, some failure => .stop (l.probed s) (.error (.output failure))
    | none, none => .goOn (l.completed s) := by
  rcases output : s.takeFailure (l.cycled s).around with ⟨around, failure⟩
  have same : (l.pumped s).machine.cycle (s.keys (l.pumped s).around) = l.frameTurn s := rfl
  have handed : (l.frameTurn s).events.foldl (deliver s)
      { l.pumped s with machine := (l.frameTurn s).machine } = l.cycled s := foldl_deliver ..
  simp only [present, same, handed, output, probed, completed]
  cases (l.frameTurn s).status <;> cases failure <;> rfl

/-- **What a frame does**: it stops the loop for the first reason that it finds, or it is
completed. -/
theorem round_eq : round s limit l =
    match l.reason? s limit with
    | some r => .stop (l.stopped s r) r
    | none => .goOn (l.completed s) := by
  have limited : l.limitReached limit = limit.any (· ≤ l.frames) := rfl
  have said (k : FrameLoop σ) (message : String) : k.say message = k.closed message := rfl
  simp only [round, limited, said]
  by_cases reached : limit.any (· ≤ l.frames) = true
  · simp [reason?, stopped, reached]
  rcases input : s.pump l.around with ⟨around, _ | failure⟩
  · have taken : l.pumped s = { l with around := around } := by rw [pumped, input]
    by_cases quit : s.quitting around = true
    · simp [reason?, stopped, taken, reached, input, quit]
    · have second := l.present_pumped s
      rw [taken] at second
      simp only [reason?, taken, reached, input, quit, second]
      cases (l.frameTurn s).status.fault? <;>
        cases (s.takeFailure (l.cycled s).around).2 <;> simp [stopped]
  · simp [reason?, stopped, pumped, reached, input]

/-! ### Whole frames -/

variable {s limit l}

theorem ahead_succ (n : ℕ) : l.ahead s (n + 1) = (l.completed s).ahead s n :=
  Function.iterate_succ_apply ..

theorem ahead_succ_eq_completed (n : ℕ) : l.ahead s (n + 1) = (l.ahead s n).completed s :=
  Function.iterate_succ_apply' ..

theorem ahead_add (n k : ℕ) : l.ahead s (n + k) = (l.ahead s n).ahead s k := by
  rw [Nat.add_comm]
  exact Function.iterate_add_apply ..

/-- **Frames without a reason to stop are completed one after the other.** -/
theorem runFrom_add {n : ℕ} (quiet : ∀ k < n, (l.ahead s k).reason? s limit = none) (fuel : ℕ) :
    runFrom s limit (n + fuel) l = runFrom s limit fuel (l.ahead s n) := by
  induction n generalizing l with
  | zero => rw [Nat.zero_add]; rfl
  | succ n ih =>
    have here : l.reason? s limit = none := quiet 0 (Nat.succ_pos n)
    have later : ∀ k < n, ((l.completed s).ahead s k).reason? s limit = none := fun k hk =>
      quiet (k + 1) (Nat.succ_lt_succ hk)
    rw [Nat.add_right_comm, runFrom, l.round_eq s limit, here, ahead_succ]
    exact ih later

theorem frames_ahead (n : ℕ) : (l.ahead s n).frames = l.frames + n := by
  induction n with
  | zero => rfl
  | succ n ih =>
    rw [ahead_succ_eq_completed, completed, ih, Nat.add_assoc]

/-- The beats of the machine in the first frames. -/
def beats (s : Surroundings σ) (l : FrameLoop σ) (n : ℕ) : List Beat :=
  (List.range n).map fun k => .cycle ((l.ahead s k).snapshot s)

theorem beats_succ (n : ℕ) :
    l.beats s (n + 1) = .cycle (l.snapshot s) :: (l.completed s).beats s n := by
  simp only [beats, List.range_succ_eq_map, List.map_cons, List.map_map]
  rfl

/-- **The machine is the one after a cycle for each frame.** -/
theorem machine_ahead (n : ℕ) : (l.ahead s n).machine = l.machine.after (l.beats s n) := by
  induction n generalizing l with
  | zero => rfl
  | succ n ih =>
    have turned : (l.completed s).machine = (l.frameTurn s).machine := rfl
    rw [ahead_succ, ih, beats_succ, turned]
    rfl

end FrameLoop

namespace Surroundings.Counts

variable {σ : Type} {s : Surroundings σ} {pumps takes : σ → ℕ} (counts : s.Counts pumps takes)
include counts

/-! ### What is counted -/

theorem cycled (l : FrameLoop σ) :
    pumps (l.cycled s).around = pumps l.around + 1 ∧
      takes (l.cycled s).around = takes l.around := by
  refine List.foldlRecOn (motive := fun a =>
    pumps a = pumps l.around + 1 ∧ takes a = takes l.around) _ _ (counts.pump l.around) ?_
  intro a kept e _
  obtain ⟨pumped, taken⟩ := counts.serve a e
  exact ⟨pumped.trans kept.1, taken.trans kept.2⟩

theorem probed (l : FrameLoop σ) :
    pumps (l.probed s).around = pumps l.around + 1 ∧
      takes (l.probed s).around = takes l.around + 1 := by
  obtain ⟨pumped, taken⟩ := counts.takeFailure (l.cycled s).around
  rw [(counts.cycled l).1] at pumped
  rw [(counts.cycled l).2] at taken
  exact ⟨pumped, taken⟩

/-- **A whole frame takes input in once and asks for an output failure once.** -/
theorem ahead (l : FrameLoop σ) (n : ℕ) :
    pumps (l.ahead s n).around = pumps l.around + n ∧
      takes (l.ahead s n).around = takes l.around + n := by
  induction n with
  | zero => exact ⟨rfl, rfl⟩
  | succ n ih =>
    rw [FrameLoop.ahead_succ_eq_completed]
    obtain ⟨pumped, taken⟩ := counts.probed (l.ahead s n)
    rw [ih.1] at pumped
    rw [ih.2] at taken
    exact ⟨pumped, taken⟩

end Surroundings.Counts

namespace Surroundings.Keeps

variable {σ : Type} {s : Surroundings σ} {P : σ → Prop} (keeps : s.Keeps P)
include keeps

/-! ### What is kept -/

theorem cycled {l : FrameLoop σ} (h : P l.around) : P (l.cycled s).around :=
  List.foldlRecOn (motive := P) _ _ (keeps.pump _ h) fun a kept e _ => keeps.serve a e kept

theorem ahead {l : FrameLoop σ} (h : P l.around) (n : ℕ) : P (l.ahead s n).around := by
  induction n with
  | zero => exact h
  | succ n ih =>
    rw [FrameLoop.ahead_succ_eq_completed]
    exact keeps.takeFailure _ (keeps.cycled ih)

/-- **What the operations keep, a loop keeps until it has stopped.** -/
theorem stopped {l : FrameLoop σ} (h : P l.around) (r : Except RunFailure Ending) :
    P (l.stopped s r).around := by
  rcases r with (_ | _ | _) | (_ | _)
  · exact keeps.cycled h
  · exact keeps.pump _ h
  · exact keeps.takeFailure _ (keeps.cycled h)
  · exact keeps.pump _ h
  · exact h

end Surroundings.Keeps

namespace FrameLoop

variable {σ : Type} {s : Surroundings σ} {limit : Option ℕ} {l : FrameLoop σ}

/-! ### The end of a run -/

/-- How many frames the machine has run when the loop stops after `n` whole frames. -/
def cyclesAt (n : ℕ) : Except RunFailure Ending → ℕ
  | .ok _ | .error (.input _) => n
  | .error (.machine _) | .error (.output _) => n + 1

/-- How often input was taken in when the loop stops after `n` whole frames. -/
def pumpsAt (n : ℕ) : Except RunFailure Ending → ℕ
  | .ok .frameLimit => n
  | .ok .quit | .error _ => n + 1

/-- How often an output failure was asked for when the loop stops after `n` whole frames. -/
def takesAt (n : ℕ) : Except RunFailure Ending → ℕ
  | .error (.output _) => n + 1
  | .ok _ | .error (.input _) | .error (.machine _) => n

/-- The loop in the first frame that finds a reason to stop. -/
theorem runFrom_eq_some {n fuel : ℕ} {r : Except RunFailure Ending}
    (first : ∀ k < n, (l.ahead s k).reason? s limit = none)
    (found : (l.ahead s n).reason? s limit = some r) (enough : n < fuel) :
    runFrom s limit fuel l = some ((l.ahead s n).stopped s r, r) := by
  obtain ⟨rest, rfl⟩ := Nat.exists_eq_add_of_lt enough
  rw [Nat.add_assoc, runFrom_add first, runFrom, round_eq, found]

theorem runFrom_eq_none {fuel : ℕ} (quiet : ∀ k < fuel, (l.ahead s k).reason? s limit = none) :
    runFrom s limit fuel l = none := by
  rw [← Nat.add_zero fuel, runFrom_add quiet]
  rfl

/-- A loop that has stopped did so in some frame that found a reason. -/
theorem exists_of_runFrom_eq_some {fuel : ℕ} {l' : FrameLoop σ} {r : Except RunFailure Ending}
    (h : runFrom s limit fuel l = some (l', r)) :
    ∃ n, (l.ahead s n).reason? s limit = some r ∧ l' = (l.ahead s n).stopped s r := by
  induction fuel generalizing l with
  | zero => cases h
  | succ fuel ih =>
    rw [runFrom, round_eq] at h
    cases found : l.reason? s limit with
    | some r' =>
      simp only [found] at h
      cases h
      exact ⟨0, found, rfl⟩
    | none =>
      simp only [found] at h
      obtain ⟨n, later, rfl⟩ := ih h
      exact ⟨n + 1, later, rfl⟩

/-- A loop stops no later than in a frame that has a reason to stop. -/
theorem exists_runFrom_eq_some {k fuel : ℕ} (found : ((l.ahead s k).reason? s limit).isSome)
    (enough : k < fuel) : ∃ l' r, runFrom s limit fuel l = some (l', r) := by
  have some : ∃ k, ((l.ahead s k).reason? s limit).isSome := ⟨k, found⟩
  obtain ⟨r, first⟩ := Option.isSome_iff_exists.1 (Nat.find_spec some)
  have earlier : ∀ j < Nat.find some, (l.ahead s j).reason? s limit = none := fun j before =>
    Option.not_isSome_iff_eq_none.1 (Nat.find_min some before)
  have soon : Nat.find some < fuel := Nat.lt_of_le_of_lt (Nat.find_min' some found) enough
  exact ⟨_, r, runFrom_eq_some earlier first soon⟩

/-- No frame of a loop that has not stopped finds a reason. -/
theorem reason?_of_runFrom_eq_none {fuel : ℕ} (h : runFrom s limit fuel l = none) :
    ∀ k < fuel, (l.ahead s k).reason? s limit = none := by
  intro k enough
  refine Option.not_isSome_iff_eq_none.1 fun found => ?_
  obtain ⟨l', r, stops⟩ := exists_runFrom_eq_some found enough
  rw [h] at stops
  cases stops

/-- A frame limit is a reason to stop once so many frames are completed. -/
theorem isSome_reason?_of_limit {f n : ℕ} (reached : f ≤ (l.ahead s n).frames) :
    ((l.ahead s n).reason? s (some f)).isSome := by
  simp [reason?, reached]

/-- So is the wish to quit. -/
theorem isSome_reason?_of_quitting (limit : Option ℕ)
    (quits : s.quitting (l.pumped s).around = true) : (l.reason? s limit).isSome := by
  simp [reason?, quits]

/-- A loop quits only if the user wants to. -/
theorem quitting_of_reason? (found : l.reason? s limit = some (.ok .quit)) :
    s.quitting (l.pumped s).around = true := by
  by_contra no
  simp [reason?, no] at found

/-- The frames of a loop change neither how much is logged nor whether that can be written. -/
theorem journal_ahead (n : ℕ) :
    (l.ahead s n).journal.verbosity = l.journal.verbosity ∧
      (l.ahead s n).journal.sink.broken = l.journal.sink.broken := by
  induction n with
  | zero => exact ⟨rfl, rfl⟩
  | succ n ih =>
    rw [ahead_succ_eq_completed]
    obtain ⟨verbosity, broken⟩ := Log.Journal.logAll_keeps (l.ahead s n).journal _
    exact ⟨verbosity.trans ih.1, broken.trans ih.2⟩

/-- The line that a record of the loop becomes. -/
theorem line_remark (message : String) :
    (remark message).line = "[INFO ][plum8_host::runner] " ++ message ++ "\n" := by
  have front : "[" ++ Log.Record.tag .info ++ "][" ++ "plum8_host::runner" ++ "] " =
      "[INFO ][plum8_host::runner] " := by decide
  exact congrArg (· ++ message ++ "\n") front

theorem machine_stopped (n : ℕ) (r : Except RunFailure Ending) :
    ((l.ahead s n).stopped s r).machine = l.machine.after (l.beats s (cyclesAt n r)) := by
  have next : ((l.ahead s n).cycled s).machine = (l.ahead s (n + 1)).machine := by
    rw [ahead_succ_eq_completed]
    rfl
  rcases r with (_ | _ | _) | (_ | _)
  · exact next.trans (machine_ahead (n + 1))
  · exact machine_ahead n
  · exact next.trans (machine_ahead (n + 1))
  · exact machine_ahead n
  · exact machine_ahead n

theorem counts_stopped {pumps takes : σ → ℕ} (counts : s.Counts pumps takes) (n : ℕ)
    (r : Except RunFailure Ending) :
    pumps ((l.ahead s n).stopped s r).around = pumps l.around + pumpsAt n r ∧
      takes ((l.ahead s n).stopped s r).around = takes l.around + takesAt n r := by
  obtain ⟨pumps_ahead, takes_ahead⟩ := counts.ahead l n
  have pumped := counts.pump (l.ahead s n).around
  have cycled := counts.cycled (l.ahead s n)
  have probed := counts.probed (l.ahead s n)
  simp only [pumps_ahead, takes_ahead] at pumped cycled probed
  rcases r with (_ | _ | _) | (_ | _)
  · exact cycled
  · exact pumped
  · exact probed
  · exact pumped
  · exact ⟨pumps_ahead, takes_ahead⟩

/-- **Where a run stops.**

* It begins with the machine and the surroundings as they are, and logs how fast it runs.  In each
  whole frame input is taken in, the machine runs for a frame with the keys that are down then, its
  calls are answered one after the other, and an output failure is asked for.
* It stops in the first frame that finds a reason, for the first that it finds.  The machine has
  then run for so many frames, and input was taken in and an output failure asked for so many times,
  as the reason says; a frame in which the machine waits for a key counts like any other.
* If it stops at the frame limit or because the user wants to quit, then its last line in the log
  tells after how many frames; if it fails, it adds none to those of its frames.
* No run goes on past its frame limit, and one without a reason never stops. -/
theorem run_stops_first (s : Surroundings σ) (limit : Option ℕ) (period : ℕ) (machine : Machine)
    (around : σ) (journal : Log.Journal) :
    let l := start machine around journal period
    let record := fun message : String =>
      (⟨.info, some "plum8_host::runner", "plum8_host::runner", message⟩ : Log.Record)
    let pumped := fun f : FrameLoop σ => (s.pump f.around).1
    let turn := fun f : FrameLoop σ => f.machine.cycle (s.keys (pumped f))
    let served := fun f : FrameLoop σ =>
      ((turn f).events.filter fun e => e.notice?.isNone).foldl (fun a e => (s.serve a e).1)
        (pumped f)
    let logged := fun f : FrameLoop σ => f.journal.logAll (s.recorded (pumped f) (turn f).events)
    (l = ⟨machine, around,
        journal.log (record ("running at one frame per " ++ Period.text period)), 0⟩ ∧
      ∀ n, let f := l.ahead s n
        f.frames = n ∧
          l.ahead s (n + 1) = ⟨(turn f).machine, (s.takeFailure (served f)).1, logged f, n + 1⟩) ∧
    (∀ n r, (∀ k < n, (l.ahead s k).reason? s limit = none) →
      (l.ahead s n).reason? s limit = some r →
      let f := l.ahead s n
      let last := f.stopped s r
      (∀ fuel, n < fuel → run s limit period fuel machine around journal = some (last, r)) ∧
      last.machine = machine.after (l.beats s (cyclesAt n r)) ∧
      (∀ pumps takes, s.Counts pumps takes →
        pumps last.around = pumps around + pumpsAt n r ∧
          takes last.around = takes around + takesAt n r) ∧
      (last.around, last.journal) = (match r with
        | .ok .frameLimit =>
          (f.around, f.journal.log (record ("stopping after " ++ toString n ++ " frames")))
        | .error (.input _) => (pumped f, f.journal)
        | .ok .quit =>
          (pumped f, f.journal.log (record ("quit requested after " ++ toString n ++ " frames")))
        | .error (.machine _) => (served f, logged f)
        | .error (.output _) => ((s.takeFailure (served f)).1, logged f)) ∧
      (journal.sink.broken = false → 3 ≤ journal.verbosity.rank →
        (r = .ok .frameLimit → last.journal.sink.text = f.journal.sink.text ++
          "[INFO ][plum8_host::runner] " ++
            ("stopping after " ++ toString n ++ " frames") ++ "\n") ∧
        (r = .ok .quit → last.journal.sink.text = f.journal.sink.text ++
          "[INFO ][plum8_host::runner] " ++
            ("quit requested after " ++ toString n ++ " frames") ++ "\n"))) ∧
    (∀ fuel, (∀ k < fuel, (l.ahead s k).reason? s limit = none) →
      run s limit period fuel machine around journal = none) ∧
    (∀ f, limit = some f → ∃ n ≤ f, ((l.ahead s n).reason? s limit).isSome) ∧
    (∀ failure, (RunFailure.input failure).message = "cannot read terminal events" ∧
      (RunFailure.input failure).cause? = some failure.message ∧
      (RunFailure.output failure).message = "cannot write to terminal" ∧
      (RunFailure.output failure).cause? = some failure.message) ∧
    ∀ fault, (RunFailure.machine fault).message = fault.message := by
  intro l record pumped turn served logged
  have frames (n : ℕ) : (l.ahead s n).frames = n := by
    rw [frames_ahead]
    exact Nat.zero_add n
  refine ⟨⟨rfl, fun n => ⟨frames n, ?frame⟩⟩, ?stops, fun fuel quiet => runFrom_eq_none quiet,
    ?limit, fun _ => ⟨rfl, rfl, rfl, rfl⟩, fun _ => rfl⟩
  case frame =>
    rw [ahead_succ_eq_completed, completed, frames]
    rfl
  case stops =>
    intro n r first found f last
    have here : f.frames = n := frames n
    refine ⟨fun fuel enough => runFrom_eq_some first found enough, machine_stopped n r,
      fun pumps takes counts => counts_stopped counts n r, ?_, fun intact loud => ?_⟩
    · rcases r with (_ | _ | _) | (_ | _)
      all_goals simp only [last, stopped, here]; rfl
    · obtain ⟨verbosity, broken⟩ : f.journal.verbosity = journal.verbosity ∧
          f.journal.sink.broken = journal.sink.broken := by
        obtain ⟨verbosity, broken⟩ := journal_ahead (s := s) (l := l) n
        obtain ⟨verbosity', broken'⟩ := Log.Journal.logAll_keeps journal [remark _]
        exact ⟨verbosity.trans verbosity', broken.trans broken'⟩
      have told {k : FrameLoop σ} (same : k.journal = f.journal) (message : String) :
          (k.closed message).journal.sink.text =
            f.journal.sink.text ++ "[INFO ][plum8_host::runner] " ++ message ++ "\n" := by
        have admitted : (remark message).level.rank ≤ f.journal.verbosity.rank := by
          rw [verbosity]
          exact loud
        rw [closed, same, Log.Journal.text_log (broken.trans intact) admitted, line_remark,
          ← String.append_assoc, ← String.append_assoc]
      constructor
      · rintro rfl
        simp only [last, stopped, here, told]
      · rintro rfl
        simp only [last, stopped, here]
        exact told rfl _
  case limit =>
    rintro f rfl
    exact ⟨f, Nat.le_refl f, isSome_reason?_of_limit (Nat.le_of_eq (frames f).symm)⟩

/-- A machine that waits for a key, and a user who wants to quit once input was taken in for the
third time; the surroundings keep the calls that they have answered. -/
theorem run_stops_first_of_waiting :
    let s : Surroundings (ℕ × ℕ × List Event) :=
      ⟨fun a => ((a.1 + 1, a.2), none), fun a => 3 ≤ a.1, fun _ => .empty,
        fun a e => ((a.1, a.2.1, a.2.2 ++ [e]), []), fun a => ((a.1, a.2.1 + 1, a.2.2), none)⟩
    let machine := (Machine.blank .standard (.ofFaces fun _ => 0)).act (.execute (.waitForKey 0))
    let journal := Log.Journal.ofVerbosity (.upTo .info)
    let l := start machine (0, 0, []) journal 0
    let last := (l.ahead s 2).stopped s (.ok .quit)
    machine.mode = .waiting 0 ∧ (∀ k < 2, (l.ahead s k).reason? s (some 5) = none) ∧
      run s (some 5) 0 9 machine (0, 0, []) journal = some (last, .ok .quit) ∧
      last.around = (3, 2, [.poll, .silence, .poll, .silence]) ∧
      last.journal.sink.text = "[INFO ][plum8_host::runner] running at one frame per 0ns\n" ++
        "[INFO ][plum8_host::runner] quit requested after 2 frames\n" := by
  intro s machine journal l last
  have first : ∀ k < 2, (l.ahead s k).reason? s (some 5) = none := by decide +kernel
  have here : (l.ahead s 2).frames = 2 ∧
      (l.ahead s 2).around = (2, 2, [.poll, .silence, .poll, .silence]) ∧
      (l.ahead s 2).journal.sink.text =
        "[INFO ][plum8_host::runner] running at one frame per 0ns\n" := by
    decide +kernel
  obtain ⟨frames, around, text⟩ := here
  have found : (l.ahead s 2).reason? s (some 5) = some (.ok .quit) := by
    simp [reason?, pumped, frames, around, s]
  obtain ⟨-, stops, -⟩ := run_stops_first s (some 5) 0 machine (0, 0, []) journal
  obtain ⟨ends, -, -, closes, tells⟩ := stops 2 (.ok .quit) first found
  refine ⟨rfl, first, ends 9 (by decide), (congrArg Prod.fst closes).trans ?_,
    ((tells rfl (by decide)).2 rfl).trans ?_⟩
  · show (s.pump (l.ahead s 2).around).1 = _
    rw [around]
  · rw [text]
    decide

end FrameLoop

end Chip8
