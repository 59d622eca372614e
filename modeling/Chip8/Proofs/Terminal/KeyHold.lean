import Mathlib.Data.List.DropRight
import Mathlib.Data.List.Induction
import Chip8.Proofs.Machine.KeyWait
import Chip8.Proofs.Past
import Chip8.Proofs.Session.Frames

/-!
# Keys that are held

A press holds its key down for eight frames, or until its release if the terminal tells when keys go
up (`Terminal.keys_are_held`).  How long a key is still held is determined by what was done to it
last, and by the frames that went by since then.

* `Terminal.holdLeft` : for how many more frames a key is held.
* `Terminal.keyboard_happen`, `Terminal.holdLeft_concat` : one moment changes a key, and how long it
  is still held, in the same way.
* `Terminal.keyboard_run` : so they agree in the course of a life.
-/

namespace Chip8

namespace Terminal

/-- What a moment does to a key, if it does anything: the key of a character is typed, unless this
asks to quit. -/
def Moment.does? (k : Key) : Moment → Option KeyAction
  | .input (.key ⟨.char c, control, action⟩) =>
    if Layout.keyOf c = some k ∧ ¬ (c = 'c' ∧ control = true) then some action else none
  | _ => none

/-- Whether a moment asks to quit. -/
def Moment.quits : Moment → Bool
  | .input (.key e) => e.code = .escape || (e.code = .char 'c' && e.control)
  | _ => false

/-- What was done to a key last. -/
def lastDone? (life : List Moment) (k : Key) : Option KeyAction :=
  (life.filterMap (Moment.does? k)).getLast?

/-- The number of frames that went by since something was done to a key. -/
def framesSince (life : List Moment) (k : Key) : Nat :=
  (life.rtakeWhile fun x => (x.does? k).isNone).count .tick

/-- For how many more frames a key is held after what was done to it. -/
def leftAfter : KeyAction → Nat
  | .press | .repeating => 8
  | .release => 0

/-- For how many more frames a key is held. -/
def holdLeft (tells : Bool) (life : List Moment) (k : Key) : Nat :=
  match lastDone? life k with
  | none => 0
  | some a => if tells then leftAfter a else leftAfter a - framesSince life k

variable {t : Terminal} {life : List Moment} {x : Moment} {k : Key}

/-! ### One moment -/

theorem does?_char (c : Char) (control : Bool) (action : KeyAction) :
    Moment.does? k (.input (.key ⟨.char c, control, action⟩)) =
      if Layout.keyOf c = some k ∧ ¬ (c = 'c' ∧ control = true) then some action else none := rfl

theorem get_set (held : Vector UInt8 16) (j : Key) (left : UInt8) (k : Key) :
    (held.set j.val left j.isLt).get k = if j = k then left else held.get k := by
  have read : (held.set j.val left j.isLt).get k = if j.val = k.val then left else held.get k :=
    Vector.getElem_set ..
  rw [read]
  simp only [Fin.val_inj]

theorem keyboard_holdKey (t : Terminal) (j : Key) (a : KeyAction) (k : Key) :
    (t.holdKey j (a != .release)).down.has k =
        (if j = k then a != .release else t.down.has k) ∧
      ((t.holdKey j (a != .release)).held.get k).toNat =
        if j = k then leftAfter a else (t.held.get k).toNat := by
  refine ⟨KeySet.has_put .., ?_⟩
  rw [holdKey, get_set]
  split
  · cases a <;> rfl
  · rfl

/-- An input that does something to a key puts it down or lets it go, and leaves the others. -/
theorem keyboard_take (t : Terminal) (i : Input) (k : Key) :
    (t.take i).down.has k =
        (((Moment.input i).does? k).map (· != .release)).getD (t.down.has k) ∧
      ((t.take i).held.get k).toNat =
        (((Moment.input i).does? k).map leftAfter).getD (t.held.get k).toNat := by
  cases i with
  | reply | other => exact ⟨rfl, rfl⟩
  | key e =>
    obtain ⟨code, control, action⟩ := e
    cases code with
    | escape | other => exact ⟨rfl, rfl⟩
    | char c =>
      rw [does?_char]
      by_cases quit : c = 'c' ∧ control = true
      · rw [if_neg fun h => h.2 quit]
        simp only [take, takeKey, if_pos quit]
        exact ⟨rfl, rfl⟩
      · simp only [take, takeKey, if_neg quit, and_iff_left quit]
        obtain unbound | ⟨j, bound⟩ := (Layout.keyOf c).eq_none_or_eq_some
        · simp only [unbound]
          exact ⟨rfl, rfl⟩
        · obtain ⟨down, held⟩ := t.keyboard_holdKey j action k
          simp only [bound, down, held, Option.some.injEq]
          split <;> exact ⟨rfl, rfl⟩

/-- The keys that are left down when some of those in a list go up. -/
theorem has_foldl_put (p : Key → Prop) [DecidablePred p] (ks : List Key) (s : KeySet) (k : Key) :
    (ks.foldl (fun s k => if p k then s.put k false else s) s).has k =
      (s.has k && !(ks.contains k && decide (p k))) := by
  induction ks generalizing s with
  | nil => simp
  | cons j ks ih =>
    rw [List.foldl_cons, ih, List.contains_cons]
    by_cases same : j = k
    · subst same
      by_cases last : p j
      · rw [if_pos last]
        simp [KeySet.has_put, last]
      · simp only [if_neg last, decide_eq_false last, Bool.and_false]
    · have differ : (k == j) = false := beq_false_of_ne (Ne.symm same)
      split <;> simp [KeySet.has_put, same, differ]

/-- A frame takes one from each hold, unless the terminal tells when keys go up. -/
theorem keyboard_age (t : Terminal) (k : Key) :
    t.age.down.has k =
        (t.down.has k && (t.tellsReleases || decide ((t.held.get k).toNat ≠ 1))) ∧
      (t.age.held.get k).toNat =
        if t.tellsReleases then (t.held.get k).toNat else (t.held.get k).toNat - 1 := by
  unfold age
  cases t.tellsReleases with
  | true => simp
  | false =>
    have one : t.held.get k = 1 ↔ (t.held.get k).toNat = 1 := UInt8.toNat_inj.symm
    have every : (List.finRange 16).contains k = true := by simp
    have worn : (t.held.map wear).get k = wear (t.held.get k) := Vector.getElem_map ..
    refine ⟨(has_foldl_put (fun k => t.held.get k = 1) _ _ k).trans ?_, ?_⟩
    · simp only [every, one]
      simp
    · simp only [Bool.false_eq_true, if_false, worn, wear]
      split
      · rename_i zero
        rw [zero]
        rfl
      · rename_i more
        have positive : 0 < (t.held.get k).toNat :=
          Nat.pos_of_ne_zero fun zero => more (UInt8.toNat_inj.1 zero)
        exact UInt8.toNat_sub_of_le _ _ positive

theorem keyboard_call (t : Terminal) (e : Event) :
    (t.happen (.call e)).down = t.down ∧ (t.happen (.call e)).held = t.held := by
  rw [happen_eq]
  cases e <;> exact ⟨rfl, rfl⟩

theorem tellsReleases_happen (t : Terminal) (x : Moment) :
    (t.happen x).tellsReleases = t.tellsReleases := by
  rw [happen_eq]
  cases x with
  | input i =>
    obtain same | quits | ⟨k, pressed, holds⟩ := take_cases i
    · rw [aside, same]
    · rw [aside, quits]
    · rw [aside, holds]
      rfl
  | tick =>
    simp only [aside, age]
    split <;> rfl
  | call e => cases e <;> rfl
  | collect => rfl

theorem tellsReleases_run (t : Terminal) (life : List Moment) :
    (t.run life).tellsReleases = t.tellsReleases := by
  induction life using List.reverseRecOn with
  | nil => rfl
  | append_singleton life x ih => rw [run_concat, tellsReleases_happen, ih]

/-! ### What was done last -/

theorem lastDone?_concat (life : List Moment) (x : Moment) (k : Key) :
    lastDone? (life ++ [x]) k = (x.does? k).or (lastDone? life k) :=
  Past.getLast?_filterMap_concat (Moment.does? k)

theorem framesSince_concat_some {a : KeyAction} (done : x.does? k = some a) :
    framesSince (life ++ [x]) k = 0 := by
  unfold framesSince
  rw [List.rtakeWhile_concat_neg _ _ _ (by simp [done])]
  rfl

theorem framesSince_concat_none (nothing : x.does? k = none) :
    framesSince (life ++ [x]) k = framesSince life k + if x = .tick then 1 else 0 := by
  unfold framesSince
  rw [List.rtakeWhile_concat_pos _ _ _ (by simp [nothing]), List.count_append,
    List.count_singleton]
  simp only [beq_iff_eq]

/-- What one moment makes of the hold of a key. -/
theorem holdLeft_concat (tells : Bool) (life : List Moment) (x : Moment) (k : Key) :
    holdLeft tells (life ++ [x]) k =
      match x.does? k with
      | some a => leftAfter a
      | none =>
        if x = .tick ∧ tells = false then holdLeft tells life k - 1 else holdLeft tells life k := by
  unfold holdLeft
  rw [lastDone?_concat]
  cases done : x.does? k with
  | some a => simp [framesSince_concat_some done]
  | none =>
    rw [Option.none_or, framesSince_concat_none done]
    cases lastDone? life k with
    | none => simp
    | some a => cases tells <;> by_cases tick : x = .tick <;> simp [tick, Nat.sub_sub]

theorem holdLeft_le (tells : Bool) (life : List Moment) (k : Key) : holdLeft tells life k ≤ 8 := by
  have most (a : KeyAction) : leftAfter a ≤ 8 := by cases a <;> decide
  unfold holdLeft
  split
  · exact Nat.zero_le 8
  · rename_i a _
    split
    · exact most a
    · exact (Nat.sub_le _ _).trans (most a)

theorem holdLeft_pos_iff {tells : Bool} :
    0 < holdLeft tells life k ↔
      ∃ a, lastDone? life k = some a ∧ a ≠ .release ∧
        (tells = true ∨ framesSince life k < 8) := by
  unfold holdLeft
  cases lastDone? life k with
  | none => simp
  | some a =>
    have told : 0 < leftAfter a ↔ a ≠ .release := by cases a <;> simp [leftAfter]
    have untold : 0 < leftAfter a - framesSince life k ↔
        a ≠ .release ∧ framesSince life k < 8 := by
      rw [Nat.sub_pos_iff_lt]
      cases a <;> simp [leftAfter]
    cases tells <;> simp [told, untold]

/-- As long as nothing is done to a key, each frame takes one from its hold. -/
theorem holdLeft_append {later : List Moment} (nothing : ∀ x ∈ later, x.does? k = none) :
    holdLeft false (life ++ later) k = holdLeft false life k - later.count .tick := by
  induction later using List.reverseRecOn with
  | nil => rw [List.append_nil, List.count_nil, Nat.sub_zero]
  | append_singleton later x ih =>
    obtain ⟨before, last⟩ := List.forall_mem_append.1 nothing
    rw [← List.append_assoc, holdLeft_concat, last x (List.mem_singleton_self x), ih before,
      List.count_append, List.count_singleton]
    by_cases tick : x = .tick <;> simp [tick, Nat.sub_sub]

/-- Inputs that arrive together do not let a key go but by releasing it. -/
theorem holdLeft_inputs {tells : Bool} {inputs : List Input} {a : KeyAction}
    (last : lastDone? (inputs.map .input) k = some a) :
    holdLeft tells (life ++ inputs.map .input) k = leftAfter a := by
  induction inputs using List.reverseRecOn with
  | nil => cases last
  | append_singleton inputs i ih =>
    rw [List.map_append, List.map_singleton, lastDone?_concat] at last
    rw [List.map_append, List.map_singleton, ← List.append_assoc, holdLeft_concat]
    cases done : (Moment.input i).does? k with
    | some b =>
      rw [done, Option.some_or, Option.some.injEq] at last
      exact congrArg leftAfter last
    | none =>
      rw [done, Option.none_or] at last
      exact (if_neg nofun).trans (ih last)

/-! ### A life -/

/-- A new terminal, which tells when keys go up or does not. -/
def opened (pipe : Pipe) (mute tells : Bool) : Terminal :=
  { Terminal.over pipe mute with tellsReleases := tells }

section

variable (pipe : Pipe) (mute tells : Bool) (life : List Moment) (k : Key)

/-- **A key is held for as long as its past says**, and it is down for as long as it is held. -/
theorem keyboard_run :
    ((opened pipe mute tells).run life).down.has k = decide (0 < holdLeft tells life k) ∧
      (((opened pipe mute tells).run life).held.get k).toNat = holdLeft tells life k := by
  induction life using List.reverseRecOn with
  | nil =>
    have unheld : (Vector.replicate 16 (0 : UInt8)).get k = 0 := Vector.getElem_replicate k.isLt
    exact ⟨KeySet.has_empty k, congrArg UInt8.toNat unheld⟩
  | append_singleton life x ih =>
    have told : ((opened pipe mute tells).run life).tellsReleases = tells :=
      tellsReleases_run _ life
    obtain ⟨down, held⟩ := ih
    rw [run_concat, holdLeft_concat]
    generalize (opened pipe mute tells).run life = t at told down held
    cases x with
    | input i =>
      obtain ⟨down', held'⟩ := t.keyboard_take i k
      rw [happen, down', held', down, held]
      cases (Moment.input i).does? k with
      | none => exact ⟨rfl, rfl⟩
      | some a => cases a <;> exact ⟨rfl, rfl⟩
    | tick =>
      obtain ⟨down', held'⟩ := t.keyboard_age k
      rw [happen, down', held', told, down, held]
      cases tells with
      | true => exact ⟨Bool.and_true _, rfl⟩
      | false =>
        have one (n : Nat) : 0 < n ∧ n ≠ 1 ↔ 0 < n - 1 := by omega
        refine ⟨?_, rfl⟩
        simp only [Moment.does?, Bool.false_or, and_self, if_true, ← Bool.decide_and]
        exact decide_eq_decide.2 (one _)
    | call e =>
      obtain ⟨down', held'⟩ := t.keyboard_call e
      rw [down', held', down, held]
      exact ⟨rfl, rfl⟩
    | collect => exact ⟨down, held⟩

end

/-! ### Asking to quit -/

theorem quitting_happen (t : Terminal) (x : Moment) :
    (t.happen x).quitting = (t.quitting || x.quits) := by
  rw [happen_eq]
  cases x with
  | input i =>
    cases i with
    | reply | other => exact (Bool.or_false _).symm
    | key e =>
      obtain ⟨code, control, action⟩ := e
      cases code with
      | escape => exact (Bool.or_true _).symm
      | other => exact (Bool.or_false _).symm
      | char c =>
        simp only [aside, take, takeKey]
        by_cases quit : c = 'c' ∧ control = true
        · simp [quit, Moment.quits]
        · rw [if_neg quit]
          obtain unbound | ⟨j, bound⟩ := (Layout.keyOf c).eq_none_or_eq_some
          · simp [unbound, Moment.quits, quit]
          · simp [bound, Moment.quits, quit, holdKey]
  | tick =>
    simp only [aside, age, Moment.quits, Bool.or_false]
    split <;> rfl
  | call e => cases e <;> exact (Bool.or_false _).symm
  | collect => exact (Bool.or_false _).symm

theorem quitting_run (t : Terminal) (life : List Moment) :
    (t.run life).quitting = (t.quitting || life.any Moment.quits) := by
  induction life generalizing t with
  | nil => exact (Bool.or_false _).symm
  | cons x life ih =>
    show ((t.happen x).run life).quitting = _
    rw [ih, quitting_happen, List.any_cons, Bool.or_assoc]

theorem any_quits_iff :
    life.any Moment.quits = true ↔
      ∃ e, .input (.key e) ∈ life ∧ (e.code = .escape ∨ e.code = .char 'c' ∧ e.control = true) := by
  rw [List.any_eq_true]
  constructor
  · rintro ⟨x, mem, quits⟩
    cases x with
    | input i =>
      cases i with
      | key e => exact ⟨e, mem, by simpa [Moment.quits] using quits⟩
      | reply | other => cases quits
    | tick | call | collect => cases quits
  · rintro ⟨e, mem, quits⟩
    exact ⟨_, mem, by simpa [Moment.quits] using quits⟩

/-! ### Frames -/

theorem lastDone?_eq_none_iff : lastDone? life k = none ↔ ∀ x ∈ life, x.does? k = none := by
  rw [lastDone?, List.getLast?_eq_none_iff, List.filterMap_eq_nil_iff]

/-- Nothing is done to a key between two frames, if it is not typed in the frames after the first
one. -/
theorem does?_between {arrivals : ℕ → List Input} {l : FrameLoop Session} {n : ℕ}
    (nothing : ∀ m, 0 < m → m ≤ n → ∀ i ∈ Session.intake arrivals
      (l.ahead (Session.surroundings arrivals) m), (Moment.input i).does? k = none) :
    ∀ x ∈ Session.between arrivals l n, x.does? k = none := by
  induction n with
  | zero => exact nofun
  | succ n ih =>
    have earlier := ih fun m pos le => nothing m pos (Nat.le_succ_of_le le)
    simp only [Session.between, List.forall_mem_append, List.forall_mem_cons, List.forall_mem_map]
    exact ⟨earlier, fun e _ => rfl, rfl, rfl, nothing (n + 1) (Nat.succ_pos n) le_rfl⟩

/-- When a frame takes in a press, the key is down in it and in the seven frames that follow. -/
theorem down_of_press {pipe : Pipe} {mute : Bool} {arrivals : ℕ → List Input}
    {l : FrameLoop Session} (lived : l.around.terminal = (opened pipe mute false).run life) {n : ℕ}
    {a : KeyAction} (last : lastDone? ((Session.intake arrivals l).map .input) k = some a)
    (press : a ≠ .release)
    (nothing : ∀ m, 0 < m → m ≤ n → ∀ i ∈ Session.intake arrivals
      (l.ahead (Session.surroundings arrivals) m), (Moment.input i).does? k = none) :
    (((l.ahead (Session.surroundings arrivals) n).snapshot
      (Session.surroundings arrivals)).has k = true ↔ n < 8) := by
  let inputs := Session.intake arrivals l
  have whole : ((l.ahead (Session.surroundings arrivals) n).pumped
      (Session.surroundings arrivals)).around.terminal = (opened pipe mute false).run
        ((life ++ [.tick]) ++ inputs.map .input ++ Session.between arrivals l n) := by
    rw [Session.terminal_ahead, Session.around_pumped, lived, run_append, run_append, run_append]
    rfl
  have eight : leftAfter a = 8 := by
    cases a with
    | press | repeating => rfl
    | release => exact absurd rfl press
  have seen : (l.ahead (Session.surroundings arrivals) n).snapshot (Session.surroundings arrivals) =
      ((l.ahead (Session.surroundings arrivals) n).pumped
        (Session.surroundings arrivals)).around.terminal.down := rfl
  rw [seen, whole, (keyboard_run ..).1, holdLeft_append (does?_between nothing),
    holdLeft_inputs last, eight, Session.count_tick_between, decide_eq_true_iff, Nat.sub_pos_iff_lt]

/-! ### The law -/

/-- **How long keys are held.**  Whatever happens to a new terminal,

* a key is down if it was typed, and was not released since, and if either the terminal tells when
  keys go up or fewer than eight frames went by since;
* the keys that are down are those that are held for some more frames, and for eight at most;
* the user wants to quit if the escape key or Control-C was typed, pressed or released, and never
  takes that back;
* when a session takes input in, the terminal first lets a frame go by, and then it takes in all
  that waits and has arrived, up to a reply; what comes after the reply waits for the next time;
* so a key whose press a frame takes in, and which is not typed in the frames after it, is down for
  the machine in this frame and in the seven that follow, and in no later one, unless the terminal
  tells when keys go up. -/
theorem keys_are_held (pipe : Pipe) (mute tells : Bool) (life : List Moment) :
    let t := (opened pipe mute tells).run life
    (∀ k, t.down.has k = true ↔
      ∃ a, lastDone? life k = some a ∧ a ≠ .release ∧
        (tells = true ∨ framesSince life k < 8)) ∧
    (∀ k : Key, t.down.has k = true ↔ 0 < t.held.get k ∧ t.held.get k ≤ 8) ∧
    (t.quitting = true ↔
      ∃ e, .input (.key e) ∈ life ∧
        (e.code = .escape ∨ e.code = .char 'c' ∧ e.control = true)) ∧
    (∀ later, t.quitting = true → (t.run later).quitting = true) ∧
    (∀ (s : Session) (arrived : List Input), s.terminal = t →
      (s.pump arrived).terminal = (opened pipe mute tells).run
          (life ++ .tick :: ((s.inbox ++ arrived).takeWhile (· ≠ .reply)).map .input) ∧
        (s.pump arrived).inbox = ((s.inbox ++ arrived).dropWhile (· ≠ .reply)).tail) ∧
    (tells = false → ∀ (arrivals : ℕ → List Input) (l : FrameLoop Session), l.around.terminal = t →
      let frame := fun n => l.ahead (Session.surroundings arrivals) n
      let seen := fun n => (frame n).snapshot (Session.surroundings arrivals)
      let taken := fun n => (((frame n).around.inbox ++
        arrivals (frame n).around.pumps).takeWhile (· ≠ .reply)).map Moment.input
      ∀ (k : Key) (a : KeyAction) (n : ℕ), lastDone? (taken 0) k = some a → a ≠ .release →
        (∀ m, 0 < m → m ≤ n → lastDone? (taken m) k = none) →
        ((seen n).has k = true ↔ n < 8) ∧
          ((frame n).machine.fault = none →
            ((frame n).frameTurn (Session.surroundings arrivals)).machine.keypad.down =
              seen n)) := by
  intro t
  refine ⟨fun k => ?_, fun k => ?_, ?_, fun later quits => ?_, fun s arrived here => ?_, ?_⟩
  · rw [(keyboard_run ..).1, decide_eq_true_iff, holdLeft_pos_iff]
  · obtain ⟨down, held⟩ := keyboard_run pipe mute tells life k
    have most := holdLeft_le tells life k
    rw [down, decide_eq_true_iff, UInt8.lt_iff_toNat_lt, UInt8.le_iff_toNat_le, held]
    exact (and_iff_left most).symm
  · rw [quitting_run, ← any_quits_iff]
    exact Bool.eq_iff_iff.1 (Bool.false_or _)
  · rw [quitting_run, quits, Bool.true_or]
  · rw [Session.pump_eq, here, run_append]
    exact ⟨rfl, rfl⟩
  · rintro rfl arrivals l here frame seen taken k a n last press nothing
    refine ⟨down_of_press here last press fun m pos le i mem => ?_,
      fun alive => Machine.down_turn alive (.cycle (seen n))⟩
    exact lastDone?_eq_none_iff.1 (nothing m pos le) _ (List.mem_map_of_mem mem)

/-- Control-X holds key 0 and Control-C asks to quit.  Of what waits and arrives then, a reply keeps
back all but `c`, whose key is down for the machine seven frames later, but not eight. -/
theorem keys_are_held_of_typed :
    let life := [Moment.input (.key ⟨.char 'X', true, .press⟩), .tick,
      .input (.key ⟨.char 'c', true, .release⟩)]
    let t := (opened .healthy true false).run life
    let typed := Input.key ⟨.char 'c', false, .press⟩
    let s : Session := ⟨t, [typed], 0⟩
    let arrivals := fun n => if n = 0 then [Input.reply, .key ⟨.char 'x', false, .press⟩] else []
    let machine := (Machine.blank .standard (.ofFaces fun _ => 0)).run
      [.execute (.setByte 0 0x10), .execute (.storeRegisters 0), .execute (.jump 0)]
    let l : FrameLoop Session := ⟨machine, s, .ofVerbosity .off, 0⟩
    let frame := fun n => l.ahead (Session.surroundings arrivals) n
    let seen := fun n => (frame n).snapshot (Session.surroundings arrivals)
    let taken := fun n => (((frame n).around.inbox ++
      arrivals (frame n).around.pumps).takeWhile (· ≠ .reply)).map Moment.input
    (lastDone? (taken 0) 0xB = some .press ∧
        ∀ m < 9, 0 < m → lastDone? (taken m) 0xB = none) ∧
      t.down.has 0 = true ∧ t.down.has 0xB = false ∧
      t.quitting = true ∧ (t.run [.tick]).quitting = true ∧
      (s.pump (arrivals 0)).inbox = [.key ⟨.char 'x', false, .press⟩] ∧
      (seen 7).has 0xB = true ∧ (frame 7).machine.fault = none ∧
      ((frame 7).frameTurn (Session.surroundings arrivals)).machine.keypad.down = seen 7 ∧
      (seen 8).has 0xB = false := by
  intro life t typed s arrivals machine l frame seen taken
  have last : lastDone? (taken 0) 0xB = some .press := by decide +kernel
  have nothing : ∀ m < 9, 0 < m → lastDone? (taken m) 0xB = none := by decide +kernel
  have quits : t.quitting = true := by decide +kernel
  have alive : (frame 7).machine.fault = none := by decide +kernel
  obtain ⟨down, -, -, forever, pumps, frames⟩ := keys_are_held .healthy true false life
  have later (n : ℕ) (le : n ≤ 8) := frames rfl arrivals l rfl 0xB .press n last nofun
    fun m pos below => nothing m (Nat.lt_succ_of_le (below.trans le)) pos
  obtain ⟨seven, latched⟩ := later 7 (by decide)
  obtain ⟨eight, -⟩ := later 8 (by decide)
  have up : lastDone? life 0xB = none := by decide +kernel
  refine ⟨⟨last, nothing⟩, (down 0).2 ⟨.press, by decide +kernel⟩,
    Bool.eq_false_iff.2 fun h => ?_, quits, forever [.tick] quits,
    (pumps s (arrivals 0) rfl).2.trans (by decide), seven.2 (by decide), alive, latched alive,
    Bool.eq_false_iff.2 fun h => absurd (eight.1 h) (by decide)⟩
  obtain ⟨a, done, -⟩ := (down 0xB).1 h
  rw [up] at done
  cases done

end Terminal

end Chip8
