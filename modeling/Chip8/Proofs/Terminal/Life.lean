import Mathlib.Data.List.Basic
import Chip8.Proofs.Terminal.Sending
import Chip8.Terminal

/-!
# The life of a terminal

An input arrives, a frame goes by, a machine calls, or the first failure is taken: these are the
moments of a terminal.  Some of them send text, and sending may fail.

* `Terminal.happen`, `Terminal.run` : what a moment, and a life, make of a terminal.
* `Terminal.output`, `Terminal.failure?` : the text that a moment sends, and how sending it fails.
* `Terminal.take_cases`, `Terminal.output_cases` : all that an input does, and all that is sent.
* `Terminal.happen_eq` : a moment does what it does aside from its output, and its output only
  changes the pipe and the failure that is kept.
* `Terminal.kept_run` : so all else evolves as it does over a pipe that never fails.
* `Terminal.taken_run` : what the pipe is left as by all that a life sends.
* `Terminal.failure_run` : which failure is kept.
-/

namespace Chip8

namespace Terminal

/-- Something that happens to a terminal. -/
inductive Moment where
  /-- An input arrives. -/
  | input (i : Input)
  /-- A frame goes by for the keys that are held. -/
  | tick
  /-- A machine calls. -/
  | call (e : Event)
  /-- The first failure is taken. -/
  | collect
  deriving DecidableEq

/-- The picture that a moment shows, if it shows one. -/
def Moment.shows? : Moment → Option Frame
  | .call e => e.frame?
  | _ => none

/-- The terminal after a moment. -/
def happen (t : Terminal) : Moment → Terminal
  | .input i => t.take i
  | .tick => t.age
  | .call e => (t.serve e).1
  | .collect => t.takeFailure.1

/-- The terminal after a life. -/
def run (t : Terminal) (life : List Moment) : Terminal := life.foldl happen t

/-- What a moment writes to the log. -/
def said (t : Terminal) : Moment → List Log.Record
  | .call e => (t.serve e).2
  | _ => []

/-- The terminal after a call, aside from the output. -/
def heed (t : Terminal) : Event → Terminal
  | .play _ _ => { t with sounding := true }
  | .silence => { t with sounding := false }
  | .poll | .draw _ | .present _ | .notice _ => t

/-- The terminal after a moment, aside from the output. -/
def aside (t : Terminal) : Moment → Terminal
  | .input i => t.take i
  | .tick => t.age
  | .call e => t.heed e
  | .collect => t

/-- The text that a moment sends, if it sends one. -/
def output (t : Terminal) : Moment → Option String
  | .call (.play _ _) => if t.sounding || t.mute then none else some bell
  | .call (.present f) => some (Picture.text f)
  | _ => none

/-- How a moment fails, if it does. -/
def failure? (t : Terminal) (x : Moment) : Option IoFailure :=
  (t.output x).bind fun text => (t.pipe.send text).2

/-- All of a terminal but its output: what it would be over a pipe that never fails. -/
def kept (t : Terminal) : Terminal := { t with pipe := .healthy, failure := none }

/-- All the text that a life sends. -/
def written (t : Terminal) : List Moment → String
  | [] => ""
  | x :: life => (t.output x).getD "" ++ written (t.happen x) life

/-- The failures of a life, in order. -/
def failures (t : Terminal) : List Moment → List IoFailure
  | [] => []
  | x :: life => (t.failure? x).toList ++ failures (t.happen x) life

variable (t : Terminal) {x : Moment}

theorem run_append (life later : List Moment) : t.run (life ++ later) = (t.run life).run later :=
  List.foldl_append

theorem run_concat (life : List Moment) (x : Moment) :
    t.run (life ++ [x]) = (t.run life).happen x :=
  t.run_append life [x]

theorem run_inputs (inputs : List Input) : t.run (inputs.map .input) = inputs.foldl take t :=
  List.foldl_map

/-! ### One moment -/

theorem send_eq (text : String) :
    t.send text =
      ({ t with
          pipe := (t.pipe.send text).1
          failure := t.failure.or (t.pipe.send text).2 },
        (t.pipe.send text).2.toList.map failureRecord) := by
  unfold send
  split
  · rename_i sent
    rw [sent, Option.or_none]
    rfl
  · rename_i sent
    rw [sent]
    rfl

/-- A call does what it does aside from its output, and its output only changes the pipe and the
failure that is kept; each failure is logged. -/
theorem serve_eq (e : Event) :
    t.serve e =
      ({ t.aside (.call e) with
          pipe := ((t.output (.call e)).map fun text => (t.pipe.send text).1).getD t.pipe
          failure := t.failure.or (t.failure? (.call e)) },
        (t.failure? (.call e)).toList.map failureRecord) := by
  cases e with
  | poll | draw | notice | silence => simp [serve, hush, output, failure?, aside, heed]
  | present f => simp [serve, display, send_eq, output, failure?, aside, heed]
  | play gain frequency =>
    cases tone : t.sounding with
    | true =>
      cases t
      cases tone
      simp [serve, play, output, failure?, aside, heed]
    | false =>
      cases silent : t.mute <;>
        simp [serve, play, send_eq, output, failure?, aside, heed, tone, silent]

/-- What an input does, to whatever terminal it arrives at. -/
theorem take_cases (i : Input) :
    (∀ t : Terminal, t.take i = t) ∨ (∀ t : Terminal, t.take i = { t with quitting := true }) ∨
      ∃ k pressed, ∀ t : Terminal, t.take i = t.holdKey k pressed := by
  cases i with
  | reply | other => exact .inl fun t => rfl
  | key e =>
    obtain ⟨code, control, action⟩ := e
    cases code with
    | escape => exact .inr (.inl fun t => rfl)
    | other => exact .inl fun t => rfl
    | char c =>
      by_cases quit : c = 'c' ∧ control = true
      · exact .inr (.inl fun t => if_pos quit)
      · cases bound : Layout.keyOf c with
        | none => exact .inl fun t => by simp only [take, takeKey, if_neg quit, bound]
        | some k =>
          exact .inr (.inr ⟨k, _, fun t => by simp only [take, takeKey, if_neg quit, bound]; rfl⟩)

/-- A moment sends a picture, or it rings the bell, or it sends nothing. -/
theorem output_cases (x : Moment) :
    (∃ f, x.shows? = some f ∧ t.output x = some (Picture.text f)) ∨
      x.shows? = none ∧ (t.output x = none ∨ t.output x = some bell) := by
  cases x with
  | call e =>
    cases e with
    | present f => exact .inl ⟨f, rfl, rfl⟩
    | play => exact .inr ⟨rfl, by rw [output]; split <;> simp⟩
    | poll | draw | silence | notice => exact .inr ⟨rfl, .inl rfl⟩
  | input | tick | collect => exact .inr ⟨rfl, .inl rfl⟩

theorem pipe_take (i : Input) : (t.take i).pipe = t.pipe ∧ (t.take i).failure = t.failure := by
  obtain same | quits | ⟨k, pressed, holds⟩ := take_cases i
  · rw [same]
    exact ⟨rfl, rfl⟩
  · rw [quits]
    exact ⟨rfl, rfl⟩
  · rw [holds]
    exact ⟨rfl, rfl⟩

theorem pipe_age : t.age.pipe = t.pipe ∧ t.age.failure = t.failure := by
  unfold age
  split <;> exact ⟨rfl, rfl⟩

/-- **What a moment makes of a terminal**, aside from its output and by it. -/
theorem happen_eq (x : Moment) :
    t.happen x =
      { t.aside x with
        pipe := ((t.output x).map fun text => (t.pipe.send text).1).getD t.pipe
        failure := if x = .collect then none else t.failure.or (t.failure? x) } := by
  cases x with
  | input i =>
    obtain ⟨pipe, failure⟩ := t.pipe_take i
    simp [happen, aside, output, failure?, ← pipe, ← failure]
  | tick =>
    obtain ⟨pipe, failure⟩ := t.pipe_age
    simp [happen, aside, output, failure?, ← pipe, ← failure]
  | call e =>
    rw [happen, serve_eq]
    rfl
  | collect => rfl

theorem said_eq (x : Moment) : t.said x = (t.failure? x).toList.map failureRecord := by
  cases x with
  | call e => rw [said, serve_eq]
  | input | tick | collect => rfl

/-! ### All but the output -/

theorem kept_take (i : Input) : (t.take i).kept = t.kept.take i := by
  obtain same | quits | ⟨k, pressed, holds⟩ := take_cases i
  · rw [same, same]
  · rw [quits, quits]
    rfl
  · rw [holds, holds]
    rfl

theorem kept_age : t.age.kept = t.kept.age := by
  have same : t.kept.tellsReleases = t.tellsReleases := rfl
  unfold age
  rw [same]
  split <;> rfl

theorem kept_happen (x : Moment) : (t.happen x).kept = t.kept.aside x := by
  have aside : (t.aside x).kept = t.kept.aside x := by
    cases x with
    | input i => exact t.kept_take i
    | tick => exact t.kept_age
    | call e => cases e <;> rfl
    | collect => rfl
  rw [← aside, happen_eq]
  rfl

section

variable {s t : Terminal}

theorem output_congr (alike : s.kept = t.kept) (x : Moment) : s.output x = t.output x := by
  have sounding : s.sounding = t.sounding := congrArg (·.sounding) alike
  have mute : s.mute = t.mute := congrArg (·.mute) alike
  cases x with
  | call e =>
    cases e with
    | play => simp only [output, sounding, mute]
    | poll | draw | silence | present | notice => rfl
  | input | tick | collect => rfl

theorem happen_congr (alike : s.kept = t.kept) (x : Moment) :
    (s.happen x).kept = (t.happen x).kept := by
  rw [kept_happen, kept_happen, alike]

/-- **Terminals that differ in their output only stay so.** -/
theorem kept_run (alike : s.kept = t.kept) (life : List Moment) :
    (s.run life).kept = (t.run life).kept := by
  induction life generalizing s t with
  | nil => exact alike
  | cons x life ih => exact ih (happen_congr alike x)

theorem written_congr (alike : s.kept = t.kept) (life : List Moment) :
    s.written life = t.written life := by
  induction life generalizing s t with
  | nil => rfl
  | cons x life ih =>
    rw [written, written, output_congr alike x, ih (happen_congr alike x)]

end

/-! ### The pipe -/

theorem taken_happen (x : Moment) :
    t.pipe.Taken ((t.output x).getD "").toUTF8 (t.happen x).pipe := by
  rw [happen_eq]
  cases t.output x with
  | none => exact .refl t.pipe
  | some text => exact t.pipe.taken_send text

/-- **What the pipe is left as by all that a life sends.** -/
theorem taken_run (life : List Moment) :
    t.pipe.Taken (t.written life).toUTF8 (t.run life).pipe := by
  induction life generalizing t with
  | nil => exact .refl t.pipe
  | cons x life ih =>
    rw [written, Pipe.toUTF8_append]
    exact (t.taken_happen x).trans (ih _)

/-- A pipe without a bound takes all of it, and stays without one. -/
theorem taken_run_of_unlimited {t : Terminal} (unlimited : t.pipe.room = none)
    (life : List Moment) :
    (t.run life).pipe.room = none ∧
      (t.run life).pipe.taken = t.pipe.taken ++ (t.written life).toUTF8 :=
  (t.taken_run life).of_unlimited unlimited

/-! ### Lives that go on -/

theorem written_append (life later : List Moment) :
    t.written (life ++ later) = t.written life ++ (t.run life).written later := by
  induction life generalizing t with
  | nil => exact String.empty_append.symm
  | cons x life ih => rw [List.cons_append, written, written, ih, String.append_assoc]; rfl

theorem written_concat (life : List Moment) (x : Moment) :
    t.written (life ++ [x]) = t.written life ++ ((t.run life).output x).getD "" := by
  rw [written_append, written, written, String.append_empty]

/-- The first of the failures is kept until it is taken. -/
theorem failure_run {life : List Moment} (uncollected : .collect ∉ life) :
    (t.run life).failure = t.failure.or (t.failures life).head? := by
  induction life generalizing t with
  | nil => exact Option.or_none.symm
  | cons x life ih =>
    rw [List.mem_cons, not_or] at uncollected
    have other : x ≠ .collect := Ne.symm uncollected.1
    have next : (t.happen x).failure = t.failure.or (t.failure? x) := by
      rw [happen_eq]
      exact if_neg other
    show ((t.happen x).run life).failure = _
    rw [ih _ uncollected.2, next, failures, List.head?_append, Option.or_assoc]
    cases t.failure? x <;> rfl

end Terminal

end Chip8
