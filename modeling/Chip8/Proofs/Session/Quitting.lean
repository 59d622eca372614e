import Chip8.Proofs.Terminal.KeyHold

/-!
# Asking to quit

The user asks to quit with the escape key or with Control-C, which arrives like any other input.  It
is taken in as soon as all replies before it were, and nothing else makes a session quit.

* `Session.quits_in_time` : whoever asks to quit is heard, no later than so many frames afterwards
  as replies arrived before.
* `Session.keeps_asked` : and who does not ask does not quit.
-/

namespace Chip8

/-- Whether a key asks to quit. -/
def KeyEvent.Asks (e : KeyEvent) : Prop := e.code = .escape ∨ e.code = .char 'c' ∧ e.control = true

namespace Session

/-- The replies that arrive in the first `n` frames. -/
def replies (arrivals : ℕ → List Input) (n : ℕ) : ℕ :=
  ((List.range n).flatMap arrivals).count .reply

/-- Whether all that waits in a session has arrived, and it was asked to quit if it does. -/
structure Asked (arrivals : ℕ → List Input) (s : Session) : Prop where
  arrived : ∀ i ∈ s.inbox, ∃ n, i ∈ arrivals n
  asked : s.terminal.quitting = true → ∃ n e, .key e ∈ arrivals n ∧ e.Asks

variable {arrivals : ℕ → List Input} {l : FrameLoop Session} {e : KeyEvent}

/-! ### Who asks is heard -/

theorem quitting_pumped_iff :
    (l.pumped (surroundings arrivals)).around.terminal.quitting = true ↔
      l.around.terminal.quitting = true ∨ ∃ e, .key e ∈ intake arrivals l ∧ e.Asks := by
  rw [around_pumped, Terminal.quitting_run, Bool.or_eq_true, Terminal.any_quits_iff]
  simp [KeyEvent.Asks]

/-- What waits after a frame is what it has left. -/
theorem inbox_completed (arrivals : ℕ → List Input) (l : FrameLoop Session) :
    (l.completed (surroundings arrivals)).around.inbox =
        l.around.left (arrivals l.around.pumps) ∧
      (l.completed (surroundings arrivals)).around.pumps = l.around.pumps + 1 := by
  rw [around_completed, around_pumped]
  exact ⟨rfl, rfl⟩

theorem plain {before : List Input} (none : .reply ∉ before) :
    ∀ i ∈ before, decide (i ≠ .reply) = true :=
  fun _ mem => decide_eq_true fun same => none (same ▸ mem)

/-- A frame takes in what waits before any reply. -/
theorem quitting_of_waiting {before after : List Input} (asks : e.Asks)
    (waits : l.around.inbox ++ arrivals l.around.pumps = before ++ .key e :: after)
    (none : .reply ∉ before) :
    (l.pumped (surroundings arrivals)).around.terminal.quitting = true := by
  refine quitting_pumped_iff.2 (.inr ⟨e, ?_, asks⟩)
  rw [intake, taken, waits, List.takeWhile_append_of_pos (plain none),
    List.takeWhile_cons_of_pos rfl]
  exact List.mem_append_right before List.mem_cons_self

/-- It leaves what waits behind the first one. -/
theorem waiting_completed {front back : List Input}
    (waits : l.around.inbox ++ arrivals l.around.pumps = front ++ .reply :: back)
    (none : .reply ∉ front) :
    (l.completed (surroundings arrivals)).around.inbox = back := by
  rw [(inbox_completed arrivals l).1, left, waits, List.dropWhile_append_of_pos (plain none)]
  rfl

/-- **A key that waits behind some replies is taken in** no later than so many frames afterwards. -/
theorem quits_within {before after : List Input} {r : ℕ} (asks : e.Asks)
    (waits : l.around.inbox ++ arrivals l.around.pumps = before ++ .key e :: after)
    (few : before.count .reply ≤ r) :
    ∃ k ≤ r, ((l.ahead (surroundings arrivals) k).pumped
      (surroundings arrivals)).around.terminal.quitting = true := by
  -- Each frame takes one reply from those that are before the key.
  induction r generalizing l before after with
  | zero =>
    have none : .reply ∉ before := List.count_eq_zero.1 (Nat.le_zero.1 few)
    exact ⟨0, le_rfl, quitting_of_waiting asks waits none⟩
  | succ r ih =>
    by_cases some : .reply ∈ before
    · obtain ⟨front, back, rfl, none⟩ := List.eq_append_cons_of_mem some
      rw [List.append_assoc, List.cons_append] at waits
      rw [List.count_append, List.count_eq_zero.2 none, Nat.zero_add, List.count_cons_self] at few
      have next : (l.completed (surroundings arrivals)).around.inbox ++
          arrivals (l.completed (surroundings arrivals)).around.pumps =
            back ++ .key e :: (after ++ arrivals (l.around.pumps + 1)) := by
        rw [waiting_completed waits none, (inbox_completed arrivals l).2, List.append_assoc,
          List.cons_append]
      obtain ⟨k, le, quits⟩ := ih next (Nat.le_of_succ_le_succ few)
      exact ⟨k + 1, Nat.succ_le_succ le, by rwa [FrameLoop.ahead_succ]⟩
    · exact ⟨0, Nat.zero_le _, quitting_of_waiting asks waits some⟩

theorem replies_succ (arrivals : ℕ → List Input) (n : ℕ) :
    replies arrivals (n + 1) = replies arrivals n + (arrivals n).count .reply := by
  rw [replies, replies, List.range_succ, List.flatMap_append, List.count_append,
    List.flatMap_singleton]

/-- No more replies wait than have arrived. -/
theorem count_reply_ahead (arrivals : ℕ → List Input) (unread : l.around.inbox = [])
    (first : l.around.pumps = 0) (n : ℕ) :
    (l.ahead (surroundings arrivals) n).around.pumps = n ∧
      (l.ahead (surroundings arrivals) n).around.inbox.count .reply ≤ replies arrivals n := by
  induction n with
  | zero => exact ⟨first, (congrArg (List.count Input.reply) unread).le⟩
  | succ n ih =>
    obtain ⟨pumps, few⟩ := ih
    obtain ⟨inbox, next⟩ := inbox_completed arrivals (l.ahead (surroundings arrivals) n)
    rw [FrameLoop.ahead_succ_eq_completed, inbox, next, pumps, replies_succ]
    refine ⟨rfl, (List.Sublist.count_le Input.reply ((List.tail_sublist _).trans
      (List.dropWhile_sublist _))).trans ?_⟩
    rw [List.count_append]
    exact Nat.add_le_add_right few _

/-- **Whoever asks to quit is heard**, no later than so many frames afterwards as replies have
arrived. -/
theorem quits_in_time (unread : l.around.inbox = []) (first : l.around.pumps = 0) {n : ℕ}
    (asks : e.Asks) (arrived : .key e ∈ arrivals n) :
    ∃ k ≤ n + replies arrivals (n + 1), (surroundings arrivals).quitting
      ((l.ahead (surroundings arrivals) k).pumped (surroundings arrivals)).around = true := by
  obtain ⟨pumps, few⟩ := count_reply_ahead arrivals unread first n
  obtain ⟨before, after, waits, -⟩ := List.eq_append_cons_of_mem
    (List.mem_append_right (l.ahead (surroundings arrivals) n).around.inbox arrived)
  have most : before.count .reply ≤ replies arrivals (n + 1) := by
    have whole := congrArg (List.count .reply) waits
    rw [List.count_append, List.count_append] at whole
    rw [replies_succ]
    omega
  rw [← congrArg arrivals pumps] at waits
  obtain ⟨k, le, quits⟩ := quits_within asks waits most
  refine ⟨n + k, Nat.add_le_add_left le n, ?_⟩
  rw [FrameLoop.ahead_add]
  exact quits

/-! ### Who does not ask does not quit -/

theorem quitting_serve (s : Session) (call : Event) :
    (s.serve call).1.terminal.quitting = s.terminal.quitting :=
  (s.terminal.quitting_happen (.call call)).trans (Bool.or_false _)

/-- **A session quits only if it was asked to.** -/
theorem keeps_asked (arrivals : ℕ → List Input) :
    (surroundings arrivals).Keeps (Asked arrivals) where
  pump s h := by
    have waiting : ∀ i ∈ s.inbox ++ arrivals s.pumps, ∃ n, i ∈ arrivals n := by
      rw [List.forall_mem_append]
      exact ⟨h.arrived, fun i mem => ⟨s.pumps, mem⟩⟩
    have pumped : ((surroundings arrivals).pump s).1 = _ := pump_eq s (arrivals s.pumps)
    rw [pumped]
    refine ⟨fun i mem => ?_, fun quits => ?_⟩
    · exact waiting i (((List.tail_sublist _).trans (List.dropWhile_sublist _)).subset mem)
    · rw [Terminal.quitting_run, Bool.or_eq_true, Terminal.any_quits_iff] at quits
      obtain already | ⟨e, mem, asks⟩ := quits
      · exact h.asked already
      · have inside : .key e ∈ s.taken (arrivals s.pumps) := by simpa using mem
        obtain ⟨n, arrived⟩ := waiting _ ((List.takeWhile_sublist _).subset inside)
        exact ⟨n, e, arrived, asks⟩
  serve s call h := ⟨h.arrived, fun quits => h.asked ((quitting_serve s call).symm.trans quits)⟩
  takeFailure s h := ⟨h.arrived, h.asked⟩

end Session

end Chip8
