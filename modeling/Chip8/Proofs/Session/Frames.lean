import Chip8.Session
import Chip8.Proofs.FrameLoop.Stopping
import Chip8.Proofs.Terminal.Life

/-!
# The frames of a session

In a frame of a session its terminal lets the frame go by for the keys that are held, takes in what
waits up to the first reply, and answers the calls of the machine; then its first failure is taken.

* `Session.pump_eq` : what taking input in makes of a session.
* `Session.around_completed` : what the rest of a frame makes of it.
* `Session.terminal_ahead`, `Session.count_tick_between` : what happens to the terminal from the
  input of one frame to that of another, and how many frames go by.
-/

namespace Chip8

open Terminal (Moment)

namespace Session

/-- What is taken in when some input arrives: what waits, and this input, up to a reply. -/
def taken (s : Session) (arrived : List Input) : List Input :=
  (s.inbox ++ arrived).takeWhile (· ≠ .reply)

/-- What waits then: all that comes after the reply. -/
def left (s : Session) (arrived : List Input) : List Input :=
  ((s.inbox ++ arrived).dropWhile (· ≠ .reply)).tail

variable (arrivals : ℕ → List Input) (l : FrameLoop Session)

/-- What the next frame of a loop takes in. -/
def intake : List Input := l.around.taken (arrivals l.around.pumps)

/-- The calls of the machine in the next frame of a loop. -/
def calls : List Event :=
  (l.frameTurn (surroundings arrivals)).events.filter fun e => e.notice?.isNone

/-- What happens to the terminal from the input of a frame to that of the `n`-th frame after it. -/
def between : ℕ → List Moment
  | 0 => []
  | n + 1 =>
    between n ++ ((calls arrivals (l.ahead (surroundings arrivals) n)).map .call ++
      .collect :: .tick :: (intake arrivals (l.ahead (surroundings arrivals) (n + 1))).map .input)

/-! ### Taking input in -/

theorem untilReply_eq (inputs : List Input) :
    untilReply inputs =
      (inputs.takeWhile (· ≠ .reply), (inputs.dropWhile (· ≠ .reply)).tail) := by
  induction inputs with
  | nil => rfl
  | cons input rest ih =>
    cases input with
    | reply => rfl
    | key e => simp [untilReply, ih]
    | other => simp [untilReply, ih]

/-- **What taking input in makes of a session**: a frame goes by first. -/
theorem pump_eq (s : Session) (arrived : List Input) :
    s.pump arrived =
      ⟨s.terminal.run (.tick :: (s.taken arrived).map .input), s.left arrived, s.pumps + 1⟩ := by
  have inputs : s.terminal.run (.tick :: (s.taken arrived).map .input) =
      (s.taken arrived).foldl Terminal.take s.terminal.age := Terminal.run_inputs _ _
  rw [pump, untilReply_eq, inputs]
  rfl

theorem around_pumped :
    (l.pumped (surroundings arrivals)).around =
      ⟨l.around.terminal.run (.tick :: (intake arrivals l).map .input),
        l.around.left (arrivals l.around.pumps), l.around.pumps + 1⟩ := pump_eq ..

/-! ### The rest of a frame -/

theorem foldl_serve (es : List Event) (s : Session) :
    es.foldl (fun s e => (s.serve e).1) s =
      { s with terminal := s.terminal.run (es.map .call) } := by
  induction es generalizing s with
  | nil => rfl
  | cons e es ih => exact ih _

/-- **What the rest of a frame makes of a session**: the calls of the machine are answered, and the
first failure is taken. -/
theorem around_completed :
    (l.completed (surroundings arrivals)).around =
      { (l.pumped (surroundings arrivals)).around with
        terminal := (l.pumped (surroundings arrivals)).around.terminal.run
          ((calls arrivals l).map .call ++ [.collect]) } := by
  have served : (l.cycled (surroundings arrivals)).around = _ :=
    foldl_serve (calls arrivals l) (l.pumped (surroundings arrivals)).around
  rw [Terminal.run_concat]
  exact congrArg (fun s => s.takeFailure.1) served

/-- What happens to the terminal from the input of a frame to that of the next one. -/
theorem terminal_completed :
    ((l.completed (surroundings arrivals)).pumped (surroundings arrivals)).around.terminal =
      (l.pumped (surroundings arrivals)).around.terminal.run ((calls arrivals l).map .call ++
        .collect :: .tick ::
          (intake arrivals (l.completed (surroundings arrivals))).map .input) := by
  rw [around_pumped, around_completed, ← Terminal.run_append, List.append_assoc]
  rfl

/-- **What happens to the terminal from the input of one frame to that of another.** -/
theorem terminal_ahead (n : ℕ) :
    ((l.ahead (surroundings arrivals) n).pumped (surroundings arrivals)).around.terminal =
      (l.pumped (surroundings arrivals)).around.terminal.run (between arrivals l n) := by
  induction n with
  | zero => rfl
  | succ n ih =>
    rw [FrameLoop.ahead_succ_eq_completed, terminal_completed, ih, ← Terminal.run_append, between,
      FrameLoop.ahead_succ_eq_completed]

/-- As many frames go by in between. -/
theorem count_tick_between (n : ℕ) : (between arrivals l n).count .tick = n := by
  have called (es : List Event) : (es.map Moment.call).count .tick = 0 := by
    simp [List.count_eq_zero]
  have typed (inputs : List Input) : (inputs.map Moment.input).count .tick = 0 := by
    simp [List.count_eq_zero]
  induction n with
  | zero => rfl
  | succ n ih =>
    simp only [between, List.count_append, List.count_cons, ih, called, typed]
    rfl

end Session

end Chip8
