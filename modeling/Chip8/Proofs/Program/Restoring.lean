import Chip8.Program
import Chip8.Proofs.Machine.Loading
import Chip8.Proofs.Session.Quitting
import Chip8.Proofs.Terminal.Controls

/-!
# Giving the terminal back

Once it has taken the screen over, a run gives it back however it ends: because of a program that is
too large, at a fault of the machine, at the frame limit, or because the user wants to quit
(`Program.terminal_is_given_back`).

* `Session.keeps_lived` : between these two moments a session does nothing to its terminal but what
  happens in the life of one.
* `Program.play_of_lt`, `Program.play_of_le` : a run with a program that is too large, and with one
  that fits.
* `Session.reason?_cases` : why the loop of a session stops, where nothing fails to be read or to be
  written.
-/

namespace Chip8

namespace Terminal

/-! ### Terminals that never fail -/

/-- A terminal over a pipe that never fails, of which no failure is known. -/
structure Healthy (t : Terminal) : Prop where
  unlimited : t.pipe.room = none
  flushes : t.pipe.stuck = false
  failure : t.failure = none

theorem Healthy.happen {t : Terminal} (h : t.Healthy) (x : Moment) : (t.happen x).Healthy := by
  have taken := t.taken_happen x
  have sent : t.failure? x = none := by
    refine Option.bind_eq_none_iff.2 fun text _ => not_not.1 fun failed => ?_
    obtain stuck | ⟨room, limited, -⟩ := (t.pipe.failure_send_iff text).1 failed
    · rw [h.flushes] at stuck
      cases stuck
    · rw [h.unlimited] at limited
      cases limited
  refine ⟨(taken.of_unlimited h.unlimited).1, taken.stuck.trans h.flushes, ?_⟩
  rw [happen_eq, sent, h.failure]
  exact ite_self _

theorem Healthy.run {t : Terminal} (h : t.Healthy) (life : List Moment) : (t.run life).Healthy := by
  induction life generalizing t with
  | nil => exact h
  | cons x life ih => exact ih (h.happen x)

theorem healthy_entered (able mute : Bool) : (entered able mute).Healthy where
  unlimited := (pipe_entered able mute).1
  flushes := by
    have asked := (Pipe.healthy.taken_send (enterText ++ queryText)).stuck
    cases able with
    | false => exact asked
    | true => exact (Pipe.taken_send _ pushText).stuck.trans asked
  failure := by cases able <;> rfl

end Terminal

namespace Session

/-! ### The life of a session -/

open Terminal (entered)

/-- What has happened to the terminal of a session since it took the screen over is a life. -/
def Lived (able mute : Bool) (s : Session) : Prop :=
  ∃ life, s.terminal = (entered able mute).run life

variable {arrivals : ℕ → List Input} {able mute : Bool} {s : Session}

theorem Lived.happen (h : Lived able mute s) (x : Terminal.Moment) :
    ∃ life, s.terminal.happen x = (entered able mute).run life := by
  obtain ⟨life, same⟩ := h
  exact ⟨life ++ [x], by rw [same, Terminal.run_concat]⟩

/-- **A session does nothing to its terminal but what happens in the life of one.** -/
theorem keeps_lived (arrivals : ℕ → List Input) (able mute : Bool) :
    (surroundings arrivals).Keeps (Lived able mute) where
  pump s h := by
    obtain ⟨life, same⟩ := h
    refine ⟨life ++ .tick :: (s.taken (arrivals s.pumps)).map .input, ?_⟩
    have pumped : ((surroundings arrivals).pump s).1 = _ := pump_eq s (arrivals s.pumps)
    rw [pumped, Terminal.run_append, same]
  serve s e h := h.happen (.call e)
  takeFailure s h := h.happen .collect

/-- No output fails. -/
theorem takeFailure_cycled {l : FrameLoop Session} (h : Lived able mute l.around) :
    ((surroundings arrivals).takeFailure (l.cycled (surroundings arrivals)).around).2 = none := by
  obtain ⟨life, same⟩ := (keeps_lived arrivals able mute).cycled h
  show (l.cycled (surroundings arrivals)).around.terminal.failure = none
  rw [same]
  exact ((Terminal.healthy_entered able mute).run life).failure

/-- Nothing fails to be read or to be written, so there are only three reasons to stop. -/
theorem reason?_eq {l : FrameLoop Session} (h : Lived able mute l.around) (limit : Option Nat) :
    l.reason? (surroundings arrivals) limit =
      ((if limit.any (· ≤ l.frames) then some (.ok .frameLimit) else none) <|>
        (if (surroundings arrivals).quitting (l.pumped (surroundings arrivals)).around then
          some (.ok .quit) else none) <|>
        (l.frameTurn (surroundings arrivals)).status.fault?.map fun fault =>
          .error (.machine fault)) := by
  have input : ((surroundings arrivals).pump l.around).2 = none := rfl
  simp [FrameLoop.reason?, input, takeFailure_cycled h]

/-- **Why the loop of a session stops**: the frame limit is reached, the user wants to quit, or the
machine meets a fault. -/
theorem reason?_cases {l : FrameLoop Session} (h : Lived able mute l.around) {limit : Option Nat}
    {r : Except RunFailure Ending} (found : l.reason? (surroundings arrivals) limit = some r) :
    (∃ ending, r = .ok ending) ∨ ∃ fault, r = .error (.machine fault) := by
  rw [reason?_eq h] at found
  split at found
  · exact .inl ⟨.frameLimit, (Option.some.inj found).symm⟩
  · split at found
    · exact .inl ⟨.quit, (Option.some.inj found).symm⟩
    · obtain ⟨fault, -, same⟩ := Option.map_eq_some_iff.1 found
      exact .inr ⟨fault, same.symm⟩

end Session

namespace Program

open Machine (loaded)
open Terminal (GivenBack)

variable {o : Options} {rom : ByteArray} {seat : Seat} {dice : Dice} {journal : Log.Journal}
  {fuel : Nat}

/-! ### The end of a run -/

theorem assemble_eq (o : Options) (rom : Array UInt8) (dice : Dice) (session : Session)
    (journal : Log.Journal) :
    (assemble o rom dice session journal).2 =
      (Parts.mk (some dice) (some rom) o.tuning).assemble.2 := rfl

/-- A program that is too large is refused when the terminal was taken over. -/
theorem play_of_lt (large : Memory.programLimit < rom.size) :
    play o rom.data seat dice journal fuel =
      some (unassembled (sessionAt seat.able o.mute)
        (assemble o rom.data dice (sessionAt seat.able o.mute) journal).1
        (.load (.programTooLarge rom.size Memory.programLimit))) := by
  have refused := (assemble_eq o rom.data dice (sessionAt seat.able o.mute) journal).trans
    (Parts.assemble_of_lt dice o.tuning large)
  rw [play]
  rcases whole : assemble o rom.data dice (sessionAt seat.able o.mute) journal with ⟨j, result⟩
  rw [whole] at refused
  cases refused
  rfl

/-- One that fits is run by the frame loop. -/
theorem play_of_le (fits : rom.size ≤ Memory.programLimit) :
    play o rom.data seat dice journal fuel =
      (FrameLoop.run (Session.surroundings seat.arrivals) o.frames o.framePeriod fuel
        (loaded o.tuning dice rom.data) (sessionAt seat.able o.mute)
        (assemble o rom.data dice (sessionAt seat.able o.mute) journal).1).map
          fun (l, result) => stopped l result := by
  have assembled := (assemble_eq o rom.data dice (sessionAt seat.able o.mute) journal).trans
    (Parts.assemble_of_le dice o.tuning fits)
  rw [play]
  rcases whole : assemble o rom.data dice (sessionAt seat.able o.mute) journal with ⟨j, result⟩
  rw [whole] at assembled
  cases assembled
  rfl

/-- The journal of a run in which a program was read. -/
def reading (o : Options) (rom : ByteArray) : Log.Journal :=
  (Log.Journal.ofVerbosity o.verbosity).log (loadedRecord o.rom rom.size)

/-- The frame loop of a run with a program that fits, before its first frame. -/
def loopOf (o : Options) (rom : ByteArray) (seat : Seat) (dice : Dice) : FrameLoop Session :=
  FrameLoop.start (loaded o.tuning dice rom.data) (sessionAt seat.able o.mute)
    (assemble o rom.data dice (sessionAt seat.able o.mute) (reading o rom)).1 o.framePeriod

/-- The frame loop when it has stopped, and why it did; nothing, if it has not stopped after `fuel`
frames. -/
def looped (o : Options) (rom : ByteArray) (seat : Seat) (dice : Dice) (fuel : Nat) :
    Option (FrameLoop Session × Except RunFailure Ending) :=
  FrameLoop.runFrom (Session.surroundings seat.arrivals) o.frames fuel (loopOf o rom seat dice)

theorem lived_loopOf (o : Options) (rom : ByteArray) (seat : Seat) (dice : Dice) :
    (loopOf o rom seat dice).around.Lived seat.able o.mute := ⟨[], rfl⟩

theorem asked_loopOf (o : Options) (rom : ByteArray) (seat : Seat) (dice : Dice) :
    (loopOf o rom seat dice).around.Asked seat.arrivals where
  arrived := nofun
  asked quits := by
    have calm : (loopOf o rom seat dice).around.terminal.quitting = false := by
      show (Terminal.entered seat.able o.mute).quitting = false
      cases seat.able <;> rfl
    rw [calm] at quits
    cases quits

/-- **The loop of a session gives the terminal back when it has stopped**, and it did so because of
the frame limit, the user or the machine. -/
theorem givenBack_of_looped {l : FrameLoop Session} {r : Except RunFailure Ending}
    (stops : looped o rom seat dice fuel = some (l, r)) :
    GivenBack seat.able l.around.terminal.leave.pipe.taken ∧
      ((∃ ending, r = .ok ending) ∨ ∃ fault, r = .error (.machine fault)) := by
  obtain ⟨n, found, rfl⟩ := FrameLoop.exists_of_runFrom_eq_some stops
  have keeps := Session.keeps_lived seat.arrivals seat.able o.mute
  have ahead := keeps.ahead (lived_loopOf o rom seat dice) n
  obtain ⟨life, same⟩ := keeps.stopped ahead r
  refine ⟨?_, Session.reason?_cases ahead found⟩
  rw [same]
  exact Terminal.givenBack_run seat.able o.mute life

/-- **The loop quits only if the user has asked to.** -/
theorem asked_of_looped {l : FrameLoop Session}
    (quits : looped o rom seat dice fuel = some (l, .ok .quit)) :
    ∃ n e, .key e ∈ seat.arrivals n ∧ e.Asks := by
  obtain ⟨n, found, -⟩ := FrameLoop.exists_of_runFrom_eq_some quits
  have keeps := Session.keeps_asked seat.arrivals
  have pumped := keeps.pump _ (keeps.ahead (asked_loopOf o rom seat dice) n)
  exact pumped.asked (FrameLoop.quitting_of_reason? found)

/-- **The loop stops when the user has asked to quit**, if it has not stopped before. -/
theorem looped_of_asks (o : Options) (rom : ByteArray) (dice : Dice) {n : ℕ} {e : KeyEvent}
    (arrived : .key e ∈ seat.arrivals n) (asks : e.Asks)
    (enough : n + Session.replies seat.arrivals (n + 1) < fuel) :
    ∃ l r, looped o rom seat dice fuel = some (l, r) := by
  obtain ⟨k, soon, quits⟩ :=
    Session.quits_in_time (l := loopOf o rom seat dice) rfl rfl asks arrived
  exact FrameLoop.exists_runFrom_eq_some (FrameLoop.isSome_reason?_of_quitting _ quits)
    (Nat.lt_of_le_of_lt soon enough)

/-- **It quits in the very frame in which the user asks to**, if no reply has arrived, it has not
stopped before, and the frame limit is not reached. -/
theorem looped_quits {n : ℕ} {e : KeyEvent} (arrived : .key e ∈ seat.arrivals n) (asks : e.Asks)
    (silent : Session.replies seat.arrivals (n + 1) = 0) (within : ∀ f, o.frames = some f → n < f)
    (runs : looped o rom seat dice n = none) (enough : n < fuel) :
    ∃ l, looped o rom seat dice fuel = some (l, .ok .quit) := by
  obtain ⟨k, soon, quits⟩ :=
    Session.quits_in_time (l := loopOf o rom seat dice) rfl rfl asks arrived
  -- The wish to quit is found in frame `k`, so an earlier one would have stopped the loop.
  have quiet := FrameLoop.reason?_of_runFrom_eq_none runs
  have reached : n ≤ k := by
    refine Nat.not_lt.1 fun before => ?_
    have some := FrameLoop.isSome_reason?_of_quitting o.frames quits
    rw [quiet k before] at some
    cases some
  obtain rfl : k = n := Nat.le_antisymm (by rwa [silent, Nat.add_zero] at soon) reached
  refine ⟨_, FrameLoop.runFrom_eq_some quiet ?_ enough⟩
  have keeps := Session.keeps_lived seat.arrivals seat.able o.mute
  have below : o.frames.any (· ≤ k) = false := by
    cases limit : o.frames with
    | none => rfl
    | some f => exact decide_eq_false (Nat.not_le.2 (within f limit))
  have first : (loopOf o rom seat dice).frames = 0 := rfl
  rw [Session.reason?_eq (keeps.ahead (lived_loopOf o rom seat dice) k), FrameLoop.frames_ahead,
    first, Nat.zero_add, below, quits]
  rfl

/-- A text about a failure is never empty. -/
theorem errorText_ne_empty (message : String) (cause : Option String) :
    errorText message cause ≠ "" := by
  intro empty
  have first := congrArg (fun text => text.toList.head?) empty
  simp [errorText, String.toList_append] at first

/-- **What a run on a terminal leaves there and says**, and when it succeeds. -/
theorem play_eq_some {p : Performance}
    (h : play o rom.data seat dice (reading o rom) fuel = some p) :
    let fits := rom.size ≤ Memory.programLimit
    let ends := fun r => ∃ l, looped o rom seat dice fuel = some (l, r)
    (∃ screen said, p.written = .screen screen :: said.map .errors ∧ GivenBack seat.able screen ∧
      (said = [] ↔ p.exit = 0) ∧ ∀ text ∈ said, text ≠ "") ∧
      (p.exit = 0 ↔ fits ∧ ∃ ending, ends (.ok ending)) ∧
      (p.exit ≠ 0 ↔ ¬ fits ∨ ∃ fault, ends (.error (.machine fault))) := by
  intro fits ends
  have one (message : String) (cause : Option String) :
      ∀ text ∈ [errorText message cause], text ≠ "" := fun text mem =>
    List.mem_singleton.1 mem ▸ errorText_ne_empty message cause
  rcases Nat.lt_or_ge Memory.programLimit rom.size with large | small
  · rw [play_of_lt large] at h
    cases h
    have refused : ¬ fits := Nat.not_le.2 large
    let e := AssemblyError.load (.programTooLarge rom.size Memory.programLimit)
    exact ⟨⟨_, [errorText e.message e.cause?], rfl, Terminal.givenBack_run seat.able o.mute [],
        iff_of_false nofun nofun, one _ _⟩,
      iff_of_false nofun fun both => refused both.1, iff_of_true nofun (.inl refused)⟩
  · rw [play_of_le small] at h
    obtain ⟨⟨l, r⟩, ran, rfl⟩ := Option.map_eq_some_iff.1 h
    have stops : looped o rom seat dice fuel = some (l, r) := ran
    obtain ⟨back, reasons⟩ := givenBack_of_looped stops
    have only (r' : Except RunFailure Ending) : ends r' ↔ r' = r := by
      simp only [ends, stops, Option.some.injEq, Prod.mk.injEq, exists_and_right, exists_eq',
        true_and]
      exact eq_comm
    simp only [only]
    obtain ⟨ending, rfl⟩ | ⟨fault, rfl⟩ := reasons
    · refine ⟨⟨_, [], rfl, back, iff_of_true rfl rfl, nofun⟩, iff_of_true rfl ⟨small, ending, rfl⟩,
        iff_of_false (fun fails => fails rfl) ?_⟩
      rintro (large | ⟨fault, other⟩)
      · exact large small
      · cases other
    · refine ⟨⟨_, [errorText fault.message none], rfl, back, iff_of_false nofun nofun, one _ _⟩,
        iff_of_false nofun ?_, iff_of_true nofun (.inr ⟨fault, rfl⟩)⟩
      rintro ⟨-, ending, other⟩
      cases other

/-! ### The law -/

/-- **The terminal is given back however a run ends.**  Let the arguments be accepted, the log file
created, the program read, and let there be a terminal, at which in each frame anything may arrive.

* What a run that ends has sent to the terminal begins with taking the screen over, goes on with
  pictures and rings of the bell, and ends with giving the screen back.  Each of the sequences that
  do so was sent once, and so was the one that makes the terminal tell when keys go up, and the one
  that ends it, if it is able to, and never if it is not.  What failed is said after that, if
  anything did.
* It succeeds if the program fits into memory and the loop stops because the user wants to quit or
  the frame limit is reached; it fails if the program is too large, or if the machine meets a fault.
* It ends if the program is too large, or if the loop stops.
* It ends if the user ever asks to quit, not later than so many frames afterwards as replies have
  arrived until then.  If none has, then the loop quits in that very frame, unless it has stopped
  before or the frame limit is reached.  It does not quit if the user never asks to. -/
theorem terminal_is_given_back {s : Start} {o : Options} {place : List String} {files : Files}
    {rom : ByteArray} {seat : Seat} (accepted : CommandLine.read s.arguments = .ok o)
    (created : s.files.create o.logFile = .ok (place, files))
    (found : files.read o.rom = .ok rom) (seated : s.seat = some seat) :
    let fits := rom.size ≤ Memory.programLimit
    let ends := fun fuel r => ∃ l, looped o rom seat s.dice fuel = some (l, r)
    let asks := fun e : KeyEvent => e.code = .escape ∨ e.code = .char 'c' ∧ e.control = true
    (∀ fuel outcome, run s fuel = some outcome →
      (∃ screen said, outcome.written = .screen screen :: said.map .errors ∧
        GivenBack seat.able screen ∧ (said = [] ↔ outcome.exit = 0) ∧ ∀ text ∈ said, text ≠ "") ∧
      (outcome.exit = 0 ↔ fits ∧ ∃ ending, ends fuel (.ok ending)) ∧
      (outcome.exit ≠ 0 ↔ ¬ fits ∨ ∃ fault, ends fuel (.error (.machine fault)))) ∧
    (∀ fuel, (∃ outcome, run s fuel = some outcome) ↔ (fits → ∃ r, ends fuel r)) ∧
    (∀ n e fuel, .key e ∈ seat.arrivals n → asks e →
      n + ((List.range (n + 1)).flatMap seat.arrivals).count .reply < fuel →
      ∃ outcome, run s fuel = some outcome) ∧
    (∀ n e fuel, .key e ∈ seat.arrivals n → asks e →
      ((List.range (n + 1)).flatMap seat.arrivals).count .reply = 0 →
      (∀ r, ¬ ends n r) → (∀ f, o.frames = some f → n < f) → n < fuel → ends fuel (.ok .quit)) ∧
    ∀ fuel, ends fuel (.ok .quit) → ∃ n e, .key e ∈ seat.arrivals n ∧ asks e := by
  intro fits ends asks
  have played (fuel : Nat) : run s fuel =
      (play o rom.data seat s.dice (reading o rom) fuel).map
        fun p => ⟨p.exit, p.written, files.put place p.journal.sink.text.toUTF8⟩ := by
    simp only [run, accepted, created, found, seated, reading]
  have whole (fuel : Nat) :
      (∃ outcome, run s fuel = some outcome) ↔ (fits → ∃ r, ends fuel r) := by
    rw [played, ← Option.isSome_iff_exists, Option.isSome_map]
    rcases Nat.lt_or_ge Memory.programLimit rom.size with large | small
    · rw [play_of_lt large]
      exact iff_of_true rfl fun fits => absurd fits (Nat.not_le.2 large)
    · rw [play_of_le small, Option.isSome_map, Option.isSome_iff_exists]
      constructor
      · rintro ⟨⟨l, r⟩, ran⟩ -
        exact ⟨r, l, ran⟩
      · intro stops
        obtain ⟨r, l, ran⟩ := stops small
        exact ⟨(l, r), ran⟩
  refine ⟨fun fuel outcome ended => ?_, whole, fun n e fuel arrived asking enough => ?_,
    fun n e fuel arrived asking silent runs within enough => ?_,
    fun fuel quits => asked_of_looped quits.choose_spec⟩
  · rw [played] at ended
    obtain ⟨p, performed, rfl⟩ := Option.map_eq_some_iff.1 ended
    exact play_eq_some performed
  · refine (whole fuel).2 fun _ => ?_
    obtain ⟨l, r, stops⟩ := looped_of_asks o rom s.dice arrived asking enough
    exact ⟨r, l, stops⟩
  · refine looped_quits arrived asking silent within ?_ enough
    exact Option.eq_none_iff_forall_ne_some.2 fun ⟨l, r⟩ stops => runs r ⟨l, stops⟩

theorem inputsOf_escape : Reading.inputsOf "\x1b" = [.key ⟨.escape, false, .press⟩] := by
  have bytes : "\x1b".toUTF8.toList = [0x1b] := by
    rw [ByteArray.toList, ByteArray.toList.loop, ByteArray.toList.loop]
    decide
  rw [Reading.inputsOf, bytes, Reading.readTurns, if_neg (by decide)]
  decide

/-- A run with the frame limit zero succeeds, and one with a program of 3585 bytes fails.  A program
that does nothing but jump to itself runs until the escape key is typed in the frame 1, when no
picture was shown yet, and then the run succeeds.  All of them give the terminal back, which tells
when keys go up. -/
theorem terminal_is_given_back_of_sizes :
    let seat := Seat.mk true fun n => if n = 1 then Reading.inputsOf "\x1b" else []
    let start := fun (limit : List String) (rom : ByteArray) =>
      Start.mk none (limit ++ ["r", "--log-file=l"]) ⟨[], [(["r"], rom)]⟩ (some seat)
        (.ofFaces fun _ => 0)
    let o := { Options.ofRom "r" with logFile := "l" }
    let zero := { o with frames := some 0 }
    let idle : ByteArray := ⟨#[0x12, 0x00]⟩
    let large : ByteArray := ⟨Array.replicate 3585 0⟩
    let back := fun (outcome : Outcome) (errors : List String) => ∃ screen,
      outcome.written = .screen screen :: errors.map .errors ∧ GivenBack true screen
    (∀ rom, CommandLine.read (start [] rom).arguments = .ok o ∧
        CommandLine.read (start ["--frames=0"] rom).arguments = .ok zero ∧
        (start [] rom).files.create "l" = .ok (["l"], (start [] rom).files.put ["l"] .empty) ∧
        ((start [] rom).files.put ["l"] .empty).read "r" = .ok rom) ∧
      (∃ outcome, run (start ["--frames=0"] idle) 1 = some outcome ∧ outcome.exit = 0 ∧
        back outcome []) ∧
      (∃ outcome, run (start [] idle) 2 = some outcome ∧ outcome.exit = 0 ∧ back outcome []) ∧
      ∃ outcome, run (start [] large) 0 = some outcome ∧ outcome.exit ≠ 0 ∧
        ∃ errors, errors ≠ [] ∧ back outcome errors := by
  intro seat start o zero idle large back
  have parts : Files.parts "r" = ["r"] ∧ Files.parts "l" = ["l"] := by
    constructor
    · rw [Files.parts, String.splitOn, if_neg (by decide), String.splitOnAux, String.splitOnAux]
      decide +kernel
    · rw [Files.parts, String.splitOn, if_neg (by decide), String.splitOnAux, String.splitOnAux]
      decide +kernel
  have plain : ∀ path ∈ ["r", "l"], Files.asksDirectory path = false ∧
      path.startsWith "/" = false := by
    decide +kernel
  obtain ⟨⟨fileR, relativeR⟩, ⟨fileL, relativeL⟩⟩ :=
    And.intro (plain "r" (by decide)) (plain "l" (by decide))
  have created (rom : ByteArray) : (start [] rom).files.create "l" =
      .ok (["l"], (start [] rom).files.put ["l"] .empty) := by
    rw [Files.create, parts.2, Files.resolve, Files.origin, relativeL, fileL]
    rfl
  have found (rom : ByteArray) : ((start [] rom).files.put ["l"] .empty).read "r" = .ok rom := by
    rw [Files.read, parts.1, Files.resolve, Files.origin, relativeR, fileR]
    rfl
  have law (rom : ByteArray) :=
    terminal_is_given_back (s := start [] rom) (o := o) rfl (created rom) (found rom) rfl
  have limited := terminal_is_given_back (s := start ["--frames=0"] idle) (o := zero) rfl
    (created idle) (found idle) rfl
  refine ⟨fun rom => ⟨rfl, rfl, created rom, found rom⟩, ?_, ?_, ?_⟩
  · obtain ⟨ended, stops, -⟩ := limited
    have limit : ∃ l, looped zero idle seat (.ofFaces fun _ => 0) 1 = some (l, .ok .frameLimit) :=
      ⟨_, rfl⟩
    obtain ⟨outcome, ran⟩ := (stops 1).2 fun _ => ⟨_, limit⟩
    obtain ⟨⟨screen, errors, written, given, silent, -⟩, succeeds, -⟩ := ended 1 outcome ran
    have success := succeeds.2 ⟨by decide, .frameLimit, limit⟩
    obtain rfl := silent.2 success
    exact ⟨outcome, ran, success, screen, written, given⟩
  · obtain ⟨ended, -, asked, quits, -⟩ := law idle
    have typed : seat.arrivals 1 = [.key ⟨.escape, false, .press⟩] := inputsOf_escape
    have silent : seat.arrivals 0 = [] := rfl
    have replies : ((List.range 2).flatMap seat.arrivals).count Input.reply = 0 := by
      show (seat.arrivals 0 ++ (seat.arrivals 1 ++ [])).count Input.reply = 0
      rw [silent, typed]
      decide
    obtain ⟨outcome, ran⟩ := asked 1 ⟨.escape, false, .press⟩ 2 (typed ▸ List.mem_singleton_self _)
      (.inl rfl) (by rw [replies]; decide)
    have quiet : ∀ k < 1, ((loopOf o idle seat (.ofFaces fun _ => 0)).ahead
        (Session.surroundings seat.arrivals) k).reason? (Session.surroundings seat.arrivals)
          o.frames = none := by
      intro k before
      obtain rfl := Nat.lt_one_iff.1 before
      let l := loopOf o idle seat (.ofFaces fun _ => 0)
      have machine : l.machine = loaded o.tuning (.ofFaces fun _ => 0) idle.data := rfl
      have keys : l.snapshot (Session.surroundings seat.arrivals) = .empty := by decide +kernel
      have stays : (Session.surroundings seat.arrivals).quitting
          (l.pumped (Session.surroundings seat.arrivals)).around = false := by
        decide +kernel
      have calm : (l.frameTurn (Session.surroundings seat.arrivals)).status.fault? = none := by
        rw [FrameLoop.frameTurn, keys, machine, loaded, Machine.act_install_of_le _ (by decide),
          Machine.act_installFont]
        simp only [Memory.installFont, Memory.overlay, Memory.ofFn_eq_mk]
        decide +kernel
      show l.reason? _ none = none
      rw [Session.reason?_eq (lived_loopOf ..), calm, stays]
      rfl
    have runs : ∀ r, ¬ ∃ l, looped o idle seat (.ofFaces fun _ => 0) 1 = some (l, r) := by
      rintro r ⟨l, stops⟩
      rw [looped, FrameLoop.runFrom_eq_none quiet] at stops
      cases stops
    have within : ∀ f, o.frames = some f → 1 < f := by
      intro f limit
      cases limit
    have quit := quits 1 ⟨.escape, false, .press⟩ 2 (typed ▸ List.mem_singleton_self _) (.inl rfl)
      replies runs within (by decide)
    obtain ⟨⟨screen, errors, written, given, silent, -⟩, succeeds, -⟩ := ended 2 outcome ran
    have success := succeeds.2 ⟨by decide, .quit, quit⟩
    obtain rfl := silent.2 success
    exact ⟨outcome, ran, success, screen, written, given⟩
  · obtain ⟨ended, stops, -⟩ := law large
    have refused : ¬ large.size ≤ Memory.programLimit := by
      have size : large.size = 3585 := Array.size_replicate
      rw [size]
      decide
    obtain ⟨outcome, ran⟩ := (stops 0).2 fun fits => absurd fits refused
    obtain ⟨⟨screen, errors, written, given, silent, -⟩, -, fails⟩ := ended 0 outcome ran
    have failure := fails.2 (.inl refused)
    exact ⟨outcome, ran, failure, errors, mt silent.1 failure, screen, written, given⟩

end Program

end Chip8
