import Chip8.Machine.Assembly
import Chip8.Proofs.Machine.Idle

/-!
# Runs of a machine

A machine is built, and then run by frames and single steps, each with the keys that are down at
its time.  Its owner may also execute instructions and put programs and the font into memory.

* `Machine.Reachable` : the machines that can come about in this way.
* `Machine.after_eq_run` : the turns of a run are acts like others.
* `Machine.trail` : the machines at which the turns of a run fetch an instruction, one after the
  other.
* `Machine.thread_trail` : a run is the execution of these instructions and is idle in between.
-/

namespace Chip8

/-- A frame or a single step, with the keys that are down at its time. -/
inductive Beat where
  | cycle (keys : KeySet)
  | step (keys : KeySet)

def Beat.keys : Beat → KeySet
  | .cycle keys | .step keys => keys

/-- What the owner of a machine may do to it. -/
inductive Act where
  | beat (b : Beat)
  /-- Execute an instruction, whatever lies at the program counter. -/
  | execute (op : Instruction)
  | installFont
  | install (program : Array UInt8)

theorem Act.beat_or_other (a : Act) : (∃ b, a = .beat b) ∨ ∀ b, a ≠ .beat b := by
  cases a with
  | beat b => exact .inl ⟨b, rfl⟩
  | _ => exact .inr nofun

namespace Machine

/-! ### Turns -/

def turn (m : Machine) : Beat → Turn
  | .cycle keys => m.cycle keys
  | .step keys => m.step keys

/-- The turns of a run. -/
def turns (m : Machine) : List Beat → List Turn
  | [] => []
  | b :: bs => m.turn b :: turns (m.turn b).machine bs

/-- The machine after a run. -/
def after (m : Machine) : List Beat → Machine
  | [] => m
  | b :: bs => after (m.turn b).machine bs

/-- How many instructions a beat may execute. -/
def quota (m : Machine) : Beat → Nat
  | .cycle _ => m.tuning.speed
  | .step _ => 1

/-- The end of the turn of a beat. -/
def endTurn : Beat → Advance → Turn
  | .cycle _ => endFrame
  | .step _ => endStep

/-- The machines at which a beat fetches an instruction. -/
def fetched (m : Machine) (b : Beat) : List Machine :=
  match m.fault with
  | some _ => []
  | none => fetches (m.quota b) (m.latchKeys b.keys).machine

/-- The machines at which a run fetches an instruction, one after the other. -/
def trail (m : Machine) : List Beat → List Machine
  | [] => []
  | b :: bs => m.fetched b ++ trail (m.turn b).machine bs

/-! ### Reachable machines -/

/-- The machine after something was done to it; what fails changes nothing. -/
def act (m : Machine) : Act → Machine
  | .beat b => (m.turn b).machine
  | .execute op =>
    match m.execute op with
    | .ok e => e.machine
    | .error _ => m
  | .installFont => m.installFont.machine
  | .install program =>
    match m.install program with
    | .ok e => e.machine
    | .error _ => m

/-- The machine after some acts. -/
def run (m : Machine) (acts : List Act) : Machine := acts.foldl act m

/-- The machines that are built, in each of the ways there are, each with what is seen of it. -/
inductive Born : Machine → List Event → Prop where
  /-- A machine with nothing in memory. -/
  | blank (tuning : Tuning) (dice : Dice) : Born (blank tuning dice) []
  /-- A machine with font and program and the standard tuning. -/
  | ofProgram {dice : Dice} {program : Array UInt8} {e : Effect}
      (h : ofProgram dice program = .ok e) : Born e.machine e.events
  /-- A machine assembled from parts. -/
  | assemble {p : Parts} {said : List Event} {m : Machine} (h : p.assemble = (said, .ok m)) :
      Born m said

/-- The machines that are built. -/
def Built (m : Machine) : Prop := ∃ said, Born m said

theorem Built.blank (tuning : Tuning) (dice : Dice) : Built (blank tuning dice) :=
  ⟨[], .blank tuning dice⟩

/-- The machines that come about when a machine is built and things are done to it. -/
inductive Reachable : Machine → Prop where
  | built {m : Machine} (h : Built m) : Reachable m
  | act {m : Machine} (h : Reachable m) (a : Act) : Reachable (m.act a)

variable {m n k : Machine}

theorem turn_of_halted {f : Fault} (h : m.fault = some f) (b : Beat) :
    m.turn b = ⟨m, [], .halted f⟩ := by
  cases b with
  | cycle keys => exact cycle_of_halted h
  | step keys => exact step_of_halted h

/-- A turn of a machine without a fault looks at the keyboard, executes a batch and ends. -/
theorem turn_of_alive (h : m.fault = none) (b : Beat) :
    m.turn b = endTurn b (latchedBatch (m.quota b) m b.keys) := by
  cases b with
  | cycle keys => exact cycle_of_alive h
  | step keys => exact step_of_alive h

theorem idle_endTurn (b : Beat) (a : Advance) : Idle a.settled (endTurn b a).machine := by
  cases b with
  | cycle keys => exact idle_endFrame a
  | step keys =>
    simp only [endTurn, machine_endStep]
    exact .refl _

/-- A run of turns is a run of acts. -/
theorem after_eq_run (m : Machine) (bs : List Beat) : m.after bs = m.run (bs.map .beat) := by
  induction bs generalizing m with
  | nil => rfl
  | cons b bs ih => exact ih (m.turn b).machine

theorem Reachable.run (h : Reachable m) (acts : List Act) : Reachable (m.run acts) := by
  induction acts generalizing m with
  | nil => exact h
  | cons a acts ih => exact ih (h.act a)

theorem Reachable.after (h : Reachable m) (bs : List Beat) : Reachable (m.after bs) := by
  rw [after_eq_run]
  exact h.run _

theorem after_of_halted {f : Fault} (h : m.fault = some f) (bs : List Beat) :
    m.after bs = m := by
  induction bs with
  | nil => rfl
  | cons b bs ih =>
    simp only [Machine.after, turn_of_halted h]
    exact ih

theorem fetched_of_halted {f : Fault} (h : m.fault = some f) (b : Beat) : m.fetched b = [] := by
  simp only [fetched, h]

theorem trail_of_halted {f : Fault} (h : m.fault = some f) (bs : List Beat) :
    m.trail bs = [] := by
  induction bs with
  | nil => rfl
  | cons b bs ih =>
    simp only [trail, turn_of_halted h, fetched_of_halted h, List.nil_append]
    exact ih

/-! ### A run as a thread of instructions -/

/-- `Thread m ms n` : from `m` to `n` exactly the instructions at the machines `ms` are executed,
and what lies in between is idle; an instruction that fails halts the machine and is the last. -/
inductive Thread : Machine → List Machine → Machine → Prop where
  | idle {m n : Machine} (h : Idle m n) : Thread m [] n
  /-- An instruction is executed at `k`, and more may follow. -/
  | next {m k n : Machine} {ms : List Machine} (h : Idle m k) (running : k.mode = .running)
      (ok : k.executeNext.failure = none) (rest : Thread k.executeNext.machine ms n) :
      Thread m (k :: ms) n
  /-- The instruction at `k` fails. -/
  | fail {m k n : Machine} {f : Fault} (h : Idle m k) (running : k.mode = .running)
      (failed : k.executeNext.failure = some f)
      (halted : Idle { k.executeNext.machine with fault := some f } n) : Thread m [k] n

theorem Thread.idle_left (h : Idle m n) {ms : List Machine} (t : Thread n ms k) :
    Thread m ms k := by
  cases t with
  | idle h' => exact .idle (h.trans h')
  | next h' running ok rest => exact .next (h.trans h') running ok rest
  | fail h' running failed halted => exact .fail (h.trans h') running failed halted

/-- A thread that leaves the machine without a fault can be prolonged. -/
theorem Thread.append {ms ns : List Machine} (t : Thread m ms n) (alive : n.fault = none)
    (t' : Thread n ns k) : Thread m (ms ++ ns) k := by
  induction t with
  | idle h => exact t'.idle_left h
  | next h running ok _ ih => exact .next h running ok (ih alive t')
  | fail h running failed halted =>
    -- A thread that ends with a failure leaves a fault.
    rw [halted.fault] at alive
    cases alive

theorem Thread.idle_right {ms : List Machine} (t : Thread m ms n) (h : Idle n k) :
    Thread m ms k := by
  induction t with
  | idle h' => exact .idle (h'.trans h)
  | next h' running ok _ ih => exact .next h' running ok (ih h)
  | fail h' running failed halted => exact .fail h' running failed (halted.trans h)

/-- Up to an instruction a thread is a thread, of instructions that succeed; behind it there is
another one, or nothing if it fails. -/
theorem Thread.split {ms ns : List Machine} (t : Thread m (ms ++ k :: ns) n) :
    Thread m ms k ∧ (∀ j ∈ ms, j.executeNext.failure = none) ∧
      (k.executeNext.failure = none ∧ Thread k.executeNext.machine ns n ∨
        ∃ f, k.executeNext.failure = some f ∧ ns = [] ∧ n.fault = some f) := by
  induction ms generalizing m with
  | nil =>
    cases t with
    | next h running ok rest => exact ⟨.idle h, nofun, .inl ⟨ok, rest⟩⟩
    | fail h running failed halted => exact ⟨.idle h, nofun, .inr ⟨_, failed, rfl, halted.fault⟩⟩
  | cons j ms ih =>
    generalize whole : j :: ms ++ k :: ns = ks at t
    cases t with
    | idle h => cases whole
    | next h running ok rest =>
      cases whole
      obtain ⟨front, succeed, back⟩ := ih rest
      exact ⟨.next h running ok front, List.forall_mem_cons.2 ⟨ok, succeed⟩, back⟩
    | fail h running failed halted => simp at whole

theorem thread_fetches (m : Machine) (n : Nat) :
    Thread m (fetches n m) (batched n m).settled := by
  induction n generalizing m with
  | zero => exact .idle (.refl m)
  | succ n ih =>
    rcases m.running_or_waiting with mode | ⟨x, mode⟩
    · cases failed : m.executeNext.failure with
      | some f =>
        simp only [fetches, mode, failed, batched_succ_of_failure mode failed,
          Advance.settled_of_failure failed]
        exact .fail (.refl m) mode failed (.refl _)
      | none =>
        simp only [fetches, mode, failed]
        exact .next (.refl m) mode failed (batched_succ_of_ok mode failed ▸ ih _)
    · simp only [fetches, mode, batched_of_waiting mode]
      exact .idle (.refl m)

theorem thread_fetched (m : Machine) (b : Beat) :
    Thread m (m.fetched b) (m.turn b).machine := by
  cases alive : m.fault with
  | some f =>
    rw [fetched_of_halted alive, turn_of_halted alive]
    exact .idle (.refl m)
  | none =>
    have thread := (thread_fetches (m.latchKeys b.keys).machine (m.quota b)).idle_left
      (idle_latchKeys m b.keys)
    rw [turn_of_alive alive]
    simp only [fetched, alive]
    exact thread.idle_right (idle_endTurn b (latchedBatch (m.quota b) m b.keys))

/-- **A run executes the instructions of its trail and no other.** -/
theorem thread_trail (m : Machine) (bs : List Beat) : Thread m (m.trail bs) (m.after bs) := by
  induction bs generalizing m with
  | nil => exact .idle (.refl m)
  | cons b bs ih =>
    have first := thread_fetched m b
    simp only [trail, after]
    cases alive : (m.turn b).machine.fault with
    | some f =>
      -- A machine that is halted stays as it is, whatever beats follow.
      rw [trail_of_halted alive, after_of_halted alive, List.append_nil]
      exact first
    | none => exact first.append alive (ih _)

end Machine

end Chip8
