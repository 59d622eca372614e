import Mathlib.Data.List.Chain
import Chip8.Proofs.Machine.Faults

/-!
# What the log tells of an execution

If everything is logged, the log tells which instructions were executed, which fault halted the
machine, and which keys were awaited and pressed (`Machine.Reachable.log_tells_execution`).

* `Machine.readings_executeNext` : an instruction that is fetched is noted once, a word that is none
  is not noted.
* `Fetch.eq_of_text` : the line about an instruction determines the address, the word and the
  instruction.
* `Machine.isChain_fetches` : each instruction of a batch is fetched where the one before it led to.
* `Machine.alternates_turn` : a turn goes on with the lines about keys where the one before it left
  them.
-/

namespace Chip8

/-- A record of a machine. -/
def Log.Record.ofMachine (level : Log.Level) (message : String) : Log.Record :=
  ⟨level, some "plum8::plum", "plum8::plum", message⟩

/-- The record of a level that an event is, if it is one. -/
def Event.record? (level : Log.Level) (e : Event) : Option Log.Record :=
  (e.notice?.filter fun n => n.level = level).map Notice.record

open Log.Record (ofMachine)

/-- A word that was read as an instruction: where it was read, and what it is. -/
@[ext] structure Fetch where
  address : UInt16
  word : UInt16
  op : Instruction
  deriving DecidableEq

/-- The fetch that an event notes, if it notes one. -/
def Event.fetch? : Event → Option Fetch
  | .notice (.fetched address word op) => some ⟨address, word, op⟩
  | _ => none

/-- The line about a fetch: its address, its word, and the pattern and the operands of its
instruction. -/
def Fetch.text (r : Fetch) : String :=
  Hex.address r.address ++ ": " ++ Hex.padded 4 r.word.toNat ++ " " ++
    ("_" ++ r.op.pattern ++
      if r.op.operands = [] then ""
      else " \x7b " ++
        ", ".intercalate (r.op.operands.map fun (name, value) => name ++ ": " ++ toString value) ++
        " \x7d")

/-! ### Lines that tell what was fetched -/

theorem Fetch.message_eq (r : Fetch) :
    (Notice.fetched r.address r.word r.op).message = r.text := by
  show _ ++ Fields.text _ _ = _
  rw [Fields.text_eq]
  rfl

theorem Event.record?_trace (e : Event) :
    e.record? .trace = e.fetch?.map fun r => ofMachine .trace r.text := by
  cases e with
  | notice n =>
    cases n with
    | fetched address word op =>
      exact congrArg (some <| ofMachine .trace ·) (Fetch.message_eq ⟨address, word, op⟩)
    | _ => rfl
  | _ => rfl

theorem Fetch.toList_text (r : Fetch) :
    r.text.toList = (Hex.address r.address).toList ++ ':' :: ' ' ::
      ((Hex.padded 4 r.word.toNat).toList ++ ' ' :: r.op.description.toList) := by
  rw [← Fetch.message_eq]
  show (_ ++ _ ++ _ ++ _ ++ _ : String).toList = _
  simp only [String.toList_append, List.append_assoc]
  rfl

/-- **The line about a fetch determines it.** -/
theorem Fetch.eq_of_text {r r' : Fetch} (fits : r.op.Fits) (fits' : r'.op.Fits)
    (h : r.text = r'.text) : r = r' := by
  have same := congrArg String.toList h
  rw [Fetch.toList_text, Fetch.toList_text] at same
  -- The address ends at the first colon, and the word at the first blank behind it.
  obtain ⟨addresses, behind⟩ := Pieces.append_cons_inj
    (Hex.not_mem_address (by decide) (by decide)) (Hex.not_mem_address (by decide) (by decide)) same
  obtain ⟨words, ops⟩ := Pieces.append_cons_inj (Hex.not_mem_padded (by decide))
    (Hex.not_mem_padded (by decide)) (List.cons.inj behind).2
  have word := UInt16.toNat_inj.1 (Hex.padded_inj words)
  have op := Instruction.description_inj fits fits' (String.toList_inj.1 ops)
  exact Fetch.ext (Hex.address_inj addresses) word op

namespace Machine

/-- What is read at the program counter, if the word there is an instruction. -/
def reading (m : Machine) : Option Fetch := m.nextOp.map fun op => ⟨m.pc, m.nextWord, op⟩

variable {m n k : Machine} {b : Beat} {f : Fault}

/-! ### Fetches in their order -/

theorem readings_executeNext (m : Machine) :
    m.executeNext.events.filterMap Event.fetch? = m.reading.toList := by
  rcases executeNext_cases m with
    ⟨f, said, failed, ⟨none, rfl, -⟩ | ⟨op, next, rfl, -⟩⟩ | ⟨op, e, next, outcome, done⟩
  · rw [failed, reading, none]
    rfl
  · rw [failed, reading, next]
    rfl
  · rw [done, reading, next]
    cases outcome <;> rfl

theorem readings_latchKeys (m : Machine) (keys : KeySet) :
    (m.latchKeys keys).events.filterMap Event.fetch? = [] := by
  rcases latchKeys_cases m keys with ⟨kept, -⟩ | ⟨x, key, rest, -, -, answered⟩
  · rw [kept]
    rfl
  · rw [answered]
    rfl

/-- Where a turn ends, no instruction is noted and no key is logged. -/
theorem nothing_of_late {e : Event} (late : e.late = true) :
    e.fetch? = none ∧ e.record? .info = none := by
  cases e with
  | poll | draw => cases late
  | play | silence | present => exact ⟨rfl, rfl⟩
  | notice n =>
    cases n with
    | soundFinished | halted => exact ⟨rfl, rfl⟩
    | _ => cases late

theorem late_closing {a : Advance} {e : Event} (h : e ∈ closing b a) : e.late = true := by
  have alone {e' : Event} (late : e'.late = true) : ∀ e ∈ [e'], e.late = true := by
    intro e mem
    rwa [List.mem_singleton.1 mem]
  have shown (m : Machine) : ∀ e ∈ m.presentFrame.events, e.late = true := by
    rw [events_presentFrame]
    split
    · exact alone rfl
    · exact nofun
  have ticked (m : Machine) : ∀ e ∈ m.tickTimers.events, e.late = true := by
    rw [events_tickTimers]
    split
    · exact alone rfl
    · exact nofun
  have toned (m : Machine) : m.tone.late = true := by
    rw [tone_eq]
    split <;> rfl
  cases b with
  | step keys =>
    rw [closing_step, List.mem_map] at h
    obtain ⟨f, -, rfl⟩ := h
    rfl
  | cycle keys =>
    cases failed : a.failure with
    | some f =>
      simp only [closing, failed, List.mem_append, List.mem_cons, List.not_mem_nil, or_false] at h
      obtain (rfl | picture) | rfl := h
      · rfl
      · exact shown _ e picture
      · rfl
    | none =>
      simp only [closing, failed, List.mem_append, List.mem_cons] at h
      obtain tick | rfl | picture := h
      · exact ticked _ e tick
      · exact toned _
      · exact shown _ e picture

theorem nothing_closing (b : Beat) (a : Advance) :
    (closing b a).filterMap Event.fetch? = [] ∧
      (closing b a).filterMap (Event.record? .info) = [] :=
  ⟨List.filterMap_eq_nil_iff.2 fun _ h => (nothing_of_late (late_closing h)).1,
    List.filterMap_eq_nil_iff.2 fun _ h => (nothing_of_late (late_closing h)).2⟩

/-- **The instructions that are noted are those that are fetched.** -/
theorem readings_turn (m : Machine) (b : Beat) :
    (m.turn b).events.filterMap Event.fetch? = (m.fetched b).filterMap reading := by
  cases alive : m.fault with
  | some f =>
    rw [turn_of_halted alive, fetched_of_halted alive]
    rfl
  | none =>
    have each : ((m.fetched b).flatMap fun k => k.executeNext.events).filterMap Event.fetch? =
        (m.fetched b).filterMap reading := by
      rw [List.filterMap_flatMap, List.filterMap_eq_flatMap_toList]
      exact congrArg (fun g => (m.fetched b).flatMap g) (funext readings_executeNext)
    rw [events_turn alive, List.filterMap_append, List.filterMap_append, readings_latchKeys, each,
      (nothing_closing b _).1, List.nil_append, List.append_nil]

/-- **There is one line for each of them.** -/
theorem trace_turn (m : Machine) (b : Beat) :
    (m.turn b).events.filterMap (Event.record? .trace) =
      ((m.fetched b).filterMap reading).map fun r => ofMachine .trace r.text := by
  rw [← readings_turn, List.map_filterMap]
  exact congrArg (fun g => (m.turn b).events.filterMap g) (funext Event.record?_trace)

theorem fits_of_reading {r : Fetch} (h : k.reading = some r) : r.op.Fits := by
  obtain ⟨op, next, rfl⟩ := Option.map_eq_some_iff.1 h
  exact (Instruction.encode_of_decode next).1

/-! ### Instructions one after the other -/

theorem head?_fetches {s : Nat} (h : k ∈ (fetches s m).head?) : k = m := by
  unfold fetches at h
  split at h
  · cases h
  · split at h
    · cases h
    · split at h <;> exact (Option.some.inj h).symm

/-- **Each instruction of a batch is fetched where the one before it led to.** -/
theorem isChain_fetches (s : Nat) (m : Machine) :
    (fetches s m).IsChain fun k k' =>
      k.executeNext.failure = none ∧ k' = k.executeNext.machine := by
  induction s generalizing m with
  | zero => exact .nil
  | succ s ih =>
    unfold fetches
    split
    · exact .nil
    · split
      · exact .singleton m
      · rename_i ok
        exact List.isChain_cons.2 ⟨fun k h => ⟨ok, head?_fetches h⟩, ih _⟩

theorem length_fetches_le (s : Nat) (m : Machine) : (fetches s m).length ≤ s := by
  induction s generalizing m with
  | zero => exact Nat.le_refl 0
  | succ s ih =>
    unfold fetches
    split
    · exact Nat.zero_le _
    · split
      · exact Nat.succ_le_succ (Nat.zero_le s)
      · exact Nat.succ_le_succ (ih _)

theorem isChain_fetched (m : Machine) (b : Beat) :
    (m.fetched b).IsChain fun k k' =>
      k.executeNext.failure = none ∧ k' = k.executeNext.machine := by
  unfold fetched
  split
  · exact .nil
  · exact isChain_fetches _ _

theorem head?_fetched (h : k ∈ (m.fetched b).head?) : k = (m.latchKeys b.keys).machine := by
  unfold fetched at h
  split at h
  · cases h
  · exact head?_fetches h

theorem length_fetched_le (m : Machine) (b : Beat) : (m.fetched b).length ≤ m.quota b := by
  unfold fetched
  split
  · exact Nat.zero_le _
  · exact length_fetches_le _ _

/-- If a thread halts the machine, then its last instruction is the one that fails. -/
theorem Thread.exists_eq_concat {ks : List Machine} (t : Thread m ks n) (alive : m.fault = none)
    (halted : n.fault = some f) :
    ∃ front k, ks = front ++ [k] ∧ k.executeNext.failure = some f := by
  induction t with
  | idle same =>
    rw [same.fault, alive] at halted
    cases halted
  | next same running ok rest ih =>
    obtain ⟨front, k, rfl, failed⟩ := ih
      ((fault_executeNext _).trans (same.fault.trans alive)) halted
    exact ⟨_ :: front, k, rfl, failed⟩
  | @fail m k n g same running failed last =>
    rw [last.fault] at halted
    exact ⟨[], k, rfl, failed.trans halted⟩

/-- If it does not, all of its instructions succeed. -/
theorem Thread.forall_ok {ks : List Machine} (t : Thread m ks n) (alive : n.fault = none) :
    ∀ k ∈ ks, k.executeNext.failure = none := by
  induction t with
  | idle same => exact nofun
  | next same running ok rest ih => exact List.forall_mem_cons.2 ⟨ok, ih alive⟩
  | fail same running failed last =>
    rw [last.fault] at alive
    cases alive

/-- The program counter is left where the last instruction of a thread left it. -/
theorem Thread.pc {ks : List Machine} (t : Thread m ks n) :
    n.pc = (ks.getLast?.map fun k => k.executeNext.machine.pc).getD m.pc := by
  induction t with
  | idle same => exact same.pc
  | @next m k n ks same running ok rest ih =>
    rw [ih, List.getLast?_cons]
    cases ks.getLast? <;> rfl
  | fail same running failed last => exact last.pc

/-- **Why an instruction fails**: its word is none, or it is a call or a return that the call stack
does not allow. -/
theorem WellFormed.nextOp_of_failure (well : WellFormed k)
    (failed : k.executeNext.failure = some f) :
    k.nextOp = none ∧ f = .unknownOpcode k.nextWord k.pc ∨
      k.nextOp ≠ none ∧ (f = .stackOverflow k.pc ∨ f = .stackUnderflow k.pc) := by
  rcases well.failure_iff.1 failed with ⟨none, rfl⟩ | ⟨ret, -, rfl⟩ | ⟨call, -, rfl⟩
  · exact .inl ⟨none, rfl⟩
  · have next : k.nextOp = some .ret := Instruction.decode_eq_ret_iff.2 ret
    exact .inr ⟨by rw [next]; exact Option.some_ne_none _, .inr rfl⟩
  · obtain ⟨nnn, next⟩ := Instruction.decode_eq_call_iff.2 call
    have next : k.nextOp = some (.call nnn) := next
    exact .inr ⟨by rw [next]; exact Option.some_ne_none _, .inl rfl⟩

/-! ### Lines about faults -/

/-- **A turn logs one error if it halts the machine**, and none if it does not. -/
theorem error_turn (alive : m.fault = none) (b : Beat) :
    (m.turn b).events.filterMap (Event.record? .error) =
      (m.turn b).machine.fault.toList.map fun f =>
        ofMachine .error ("machine halted: " ++ f.message) := by
  have errors := congrArg (List.map Notice.record) (error?_said alive (.beat b))
  rw [List.map_filterMap, List.map_map] at errors
  exact errors

/-- The fault is the last thing that is seen of the turn. -/
theorem exists_events_eq_concat (alive : m.fault = none)
    (halted : (m.turn b).machine.fault = some f) :
    ∃ front, (m.turn b).events = front ++ [.notice (.halted f)] := by
  rw [fault_turn alive] at halted
  rw [events_turn alive]
  generalize latchedBatch (m.quota b) m b.keys = a at halted ⊢
  cases b with
  | step keys =>
    rw [closing_step, halted]
    exact ⟨_, rfl⟩
  | cycle keys =>
    simp only [closing, halted]
    exact ⟨_, (List.append_assoc ..).symm⟩

/-! ### Lines about keys -/

/-- The lines about keys tell by turns that one is awaited and that it went down, for the same
register, from one mode of a machine to another. -/
inductive Alternates : Mode → List Log.Record → Mode → Prop where
  | none (mode : Mode) : Alternates mode [] mode
  | awaited (x : Register) {lines : List Log.Record} {last : Mode}
      (rest : Alternates (.waiting x) lines last) :
      Alternates .running
        (ofMachine .info ("waiting for key to store in V" ++ Hex.padded 1 x.val) :: lines) last
  | pressed (key : Key) (x : Register) {lines : List Log.Record} {last : Mode}
      (rest : Alternates .running lines last) :
      Alternates (.waiting x)
        (ofMachine .info ("key " ++ Hex.padded 1 key.val ++ " pressed, stored in V" ++
          Hex.padded 1 x.val) :: lines) last

theorem Alternates.append {first mid last : Mode} {lines more : List Log.Record}
    (h : Alternates first lines mid) (h' : Alternates mid more last) :
    Alternates first (lines ++ more) last := by
  induction h with
  | none => exact h'
  | awaited x rest ih => exact .awaited x (ih h')
  | pressed key x rest ih => exact .pressed key x (ih h')

/-- What is logged about keys among events. -/
def keyLines (es : List Event) : List Log.Record := es.filterMap (Event.record? .info)

theorem keyLines_append (es more : List Event) :
    keyLines (es ++ more) = keyLines es ++ keyLines more :=
  List.filterMap_append

theorem alternates_latchKeys (m : Machine) (keys : KeySet) :
    Alternates m.mode (keyLines (m.latchKeys keys).events) (m.latchKeys keys).machine.mode := by
  rcases latchKeys_cases m keys with ⟨kept, -⟩ | ⟨x, key, rest, waits, -, answered⟩
  · rw [kept]
    exact .none _
  · rw [answered, waits]
    exact .pressed key x (.none _)

theorem alternates_executeNext (running : m.mode = .running) :
    Alternates .running (keyLines m.executeNext.events) m.executeNext.machine.mode := by
  rcases executeNext_cases m with
    ⟨f, said, failed, ⟨-, rfl, -⟩ | ⟨op, -, rfl, -⟩⟩ | ⟨op, e, -, outcome, done⟩
  · rw [failed]
    exact running ▸ .none _
  · rw [failed]
    exact running ▸ .none _
  · rw [done]
    cases outcome with
    | wait x => exact .awaited x (.none _)
    | call | ret | roll => exact running ▸ .none _
    | ordinary plain keeps => exact (keeps.mode.trans running).symm ▸ .none _

theorem alternates_batched (s : Nat) (m : Machine) :
    Alternates m.mode (keyLines (batched s m).events) (batched s m).machine.mode := by
  induction s generalizing m with
  | zero => exact .none _
  | succ s ih =>
    rcases m.running_or_waiting with mode | ⟨x, mode⟩
    · have first := alternates_executeNext mode
      cases failed : m.executeNext.failure with
      | some f =>
        rw [batched_succ_of_failure mode failed, mode]
        exact first
      | none =>
        rw [batched_succ_of_ok mode failed, keyLines_append, mode]
        exact first.append (ih _)
    · rw [batched_of_waiting mode]
      exact .none _

theorem mode_endTurn (b : Beat) (a : Advance) : (endTurn b a).machine.mode = a.machine.mode := by
  cases b with
  | step keys => cases failed : a.failure <;> simp only [endTurn, endStep, failed, halt]
  | cycle keys =>
    cases failed : a.failure <;>
      simp only [endTurn, endFrame, failed, halt, machine_presentFrame, machine_tickTimers]

/-- **A turn goes on with the lines about keys where the one before it left them.** -/
theorem alternates_turn (m : Machine) (b : Beat) :
    Alternates m.mode (keyLines (m.turn b).events) (m.turn b).machine.mode := by
  cases alive : m.fault with
  | some f =>
    rw [turn_of_halted alive]
    exact .none _
  | none =>
    have whole := (alternates_latchKeys m b.keys).append
      (alternates_batched (m.quota b) (m.latchKeys b.keys).machine)
    rw [turn_of_alive alive, mode_endTurn, events_endTurn, keyLines_append, latchedBatch,
      keyLines_append]
    have silent (a : Advance) : keyLines (closing b a) = [] := (nothing_closing b a).2
    rw [silent, List.append_nil]
    exact whole

/-- So they do in the course of a run. -/
theorem alternates_turns (m : Machine) (bs : List Beat) :
    Alternates m.mode (keyLines ((m.turns bs).flatMap Turn.events)) (m.after bs).mode := by
  induction bs generalizing m with
  | nil => exact .none _
  | cons b bs ih =>
    rw [turns, List.flatMap_cons, keyLines_append]
    exact (alternates_turn m b).append (ih _)

theorem keyStored_not_mem_executeNext (m : Machine) (key : Key) (x : Register) :
    .notice (.keyStored key x) ∉ m.executeNext.events := by
  rcases executeNext_cases m with
    ⟨f, said, failed, ⟨-, rfl, -⟩ | ⟨op, -, rfl, -⟩⟩ | ⟨op, e, -, outcome, done⟩
  · rw [failed]
    exact nofun
  · rw [failed]
    simp
  · rw [done]
    cases outcome <;> simp

/-- A key that is logged was put into the register that waited for it. -/
theorem latchKeys_of_keyStored {key : Key} {x : Register}
    (h : .notice (.keyStored key x) ∈ (m.turn b).events) :
    m.mode = .waiting x ∧ (m.latchKeys b.keys).machine.mode = .running ∧
      (m.latchKeys b.keys).machine.reg x = UInt8.ofNat key.val := by
  cases alive : m.fault with
  | some f =>
    rw [turn_of_halted alive] at h
    cases h
  | none =>
    rw [events_turn alive, List.mem_append, List.mem_append] at h
    obtain (look | executed) | ending := h
    · rcases latchKeys_cases m b.keys with ⟨kept, -⟩ | ⟨y, pressed, rest, waits, -, answered⟩
      · rw [kept] at look
        simp at look
      · rw [answered] at look ⊢
        simp only [List.mem_cons, List.not_mem_nil, or_false, reduceCtorEq, false_or,
          Event.notice.injEq, Notice.keyStored.injEq] at look
        obtain ⟨rfl, rfl⟩ := look
        refine ⟨waits, rfl, ?_⟩
        rw [reg_setReg, if_pos rfl]
    · obtain ⟨k, -, said⟩ := List.mem_flatMap.1 executed
      exact (keyStored_not_mem_executeNext k key x said).elim
    · cases late_closing ending

/-! ### The law -/

/-- **The log tells what was executed.**  Let `m` be a reachable machine.  In a frame or a step of
it instructions are fetched at some machines `ks`, one after the other, and the turn executes these
and no other: as many at most as the tuning says in a frame, and one at most in a step.

* If everything is logged, each of them whose word is an instruction is noted, in their order, with
  the address that the program counter had, the word that was read there and the instruction that it
  is.  Each leaves one line, with the pattern and the operands of the instruction, and no other
  fetch of an instruction has the same line.  The first one is fetched where the program counter
  stood before the turn, each other one where the one before it led to, which succeeded, and the
  program counter is left where the last one put it.
* If `m` is not halted, a fault that halts it in the turn is logged as an error, after all else, and
  no other error is logged.  The last instruction is the one that failed; there is no line for it if
  it is unknown, and there is one if it is a call or a return that the call stack did not allow.
  The error tells which of these it was, and where.  A machine that was halted before logs nothing.
* If a key is logged as pressed in the turn, it was put into the register that waited for it before
  the first instruction was fetched.

In the course of a run the lines about keys tell by turns that a key is awaited and that one was
pressed, for the same register; the first one tells that a key is awaited, unless `m` waits. -/
theorem Reachable.log_tells_execution (h : Reachable m) :
    (∀ b,
      let t := m.turn b
      let ks := m.fetched b
      let looked := (m.latchKeys b.keys).machine
      let noted := ks.filterMap fun k => k.nextOp.map fun op => (⟨k.pc, k.nextWord, op⟩ : Fetch)
      (Thread m ks t.machine ∧
        ks.length ≤ match b with
          | .cycle _ => m.tuning.speed
          | .step _ => 1) ∧
      (t.events.filterMap Event.fetch? = noted ∧
        t.events.filterMap (Event.record? .trace) =
          noted.map (fun r => ofMachine .trace r.text) ∧
        (∀ r ∈ noted, ∀ r' : Fetch, r'.op.Fits → r'.text = r.text → r' = r) ∧
        (∀ k ∈ ks.head?, k = looked ∧ k.pc = m.pc) ∧
        (ks.IsChain fun k k' => k.executeNext.failure = none ∧ k' = k.executeNext.machine) ∧
        t.machine.pc = (ks.getLast?.map fun k => k.executeNext.machine.pc).getD m.pc) ∧
      ((m.fault = none →
          t.events.filterMap (Event.record? .error) =
              t.machine.fault.toList.map (fun f =>
                ofMachine .error ("machine halted: " ++ f.message)) ∧
            (t.machine.fault = none → ∀ k ∈ ks, k.executeNext.failure = none) ∧
            ∀ f, t.machine.fault = some f →
              (∃ before, t.events = before ++ [.notice (.halted f)]) ∧
              ∃ before k, ks = before ++ [k] ∧ k.executeNext.failure = some f ∧
                (k.nextOp = none ∧ f = .unknownOpcode k.nextWord k.pc ∧
                    f.message = "unknown opcode " ++ Hex.word k.nextWord ++ " at " ++
                      Hex.address k.pc ∨
                  k.nextOp ≠ none ∧
                    (f = .stackOverflow k.pc ∧
                        f.message = "call stack overflow at " ++ Hex.address k.pc ∨
                      f = .stackUnderflow k.pc ∧
                        f.message = "return with empty call stack at " ++ Hex.address k.pc))) ∧
        (m.fault ≠ none → t.events = [])) ∧
      ∀ key x, .notice (.keyStored key x) ∈ t.events →
        m.mode = .waiting x ∧ looked.mode = .running ∧ looked.reg x = UInt8.ofNat key.val) ∧
    ∀ bs, Alternates m.mode (((m.turns bs).flatMap Turn.events).filterMap (Event.record? .info))
      (m.after bs).mode := by
  refine ⟨fun b => ?_, fun bs => alternates_turns m bs⟩
  intro t ks looked noted
  have thread : Thread m ks t.machine := thread_fetched m b
  refine ⟨⟨thread, ?_⟩,
    ⟨readings_turn m b, trace_turn m b, fun r mem r' fits same => ?_, fun k first => ?_, ?_,
      thread.pc⟩,
    ⟨fun alive => ⟨error_turn alive b, thread.forall_ok, fun f halted => ?_⟩, fun halted => ?_⟩,
    fun key x => latchKeys_of_keyStored⟩
  · refine (length_fetched_le m b).trans ?_
    cases b <;> exact le_rfl
  · obtain ⟨k, -, read⟩ := List.mem_filterMap.1 mem
    exact Fetch.eq_of_text fits (fits_of_reading read) same
  · obtain rfl := head?_fetched first
    exact ⟨rfl, (idle_latchKeys m b.keys).pc⟩
  · exact isChain_fetched m b
  · obtain ⟨before, k, split, failed⟩ := thread.exists_eq_concat alive halted
    have last : k ∈ ks := split ▸ List.mem_append_right before (List.mem_singleton_self k)
    have inside : k ∈ m.trail [b] := List.mem_append_left _ last
    refine ⟨exists_events_eq_concat alive halted, before, k, split, failed, ?_⟩
    obtain ⟨unknown, rfl⟩ | ⟨known, rfl | rfl⟩ :=
      (h.wellFormed.trail [b] k inside).nextOp_of_failure failed
    · exact .inl ⟨unknown, rfl, rfl⟩
    · exact .inr ⟨known, .inl ⟨rfl, rfl⟩⟩
    · exact .inr ⟨known, .inr ⟨rfl, rfl⟩⟩
  · obtain ⟨f, halted⟩ := Option.ne_none_iff_exists'.1 halted
    exact congrArg Turn.events (turn_of_halted halted b)

/-- A machine is told to wait for a key, and then a return finds no open call.  The step that waits
leaves a line with the operand of its instruction, and a step in which no key goes down logs
nothing; a frame in which key 4 does logs the key, the return, which is fetched where the program
counter stood, and the fault. -/
theorem Reachable.log_tells_execution_of_return :
    let early := (blank .standard (.ofFaces fun _ => 0)).run
      [.execute (.setByte 0 0xF3), .execute (.setByte 1 0x0A), .execute (.setByte 2 0x00),
        .execute (.setByte 3 0xEE), .execute (.storeRegisters 3), .execute (.jump 0)]
    let m := early.after [.step .empty]
    let b := Beat.cycle (.single 4)
    let f := Fault.stackUnderflow 0x002
    (Reachable m ∧ m.fault = none ∧ (m.turn (.step .empty)).machine.fault = none ∧
        (m.turn b).machine.fault = some f ∧
        .notice (.keyStored 4 3) ∈ (m.turn b).events) ∧
      (early.turn (.step .empty)).events.filterMap (Event.record? .trace) =
        [ofMachine .trace "0x000: F30A _FX0A \x7b x: 3 \x7d"] ∧
      (m.turn b).events.filterMap Event.fetch? = [⟨0x002, 0x00EE, .ret⟩] ∧
      (m.turn b).events.filterMap (Event.record? .trace) = [ofMachine .trace "0x002: 00EE _00EE"] ∧
      (∀ r : Fetch, r.op.Fits → r.text = "0x002: 00EE _00EE" → r = ⟨0x002, 0x00EE, .ret⟩) ∧
      (m.turn b).events.filterMap (Event.record? .error) =
        [ofMachine .error "machine halted: return with empty call stack at 0x002"] ∧
      (∃ before, (m.turn b).events = before ++ [.notice (.halted f)]) ∧
      (∃ before k, m.fetched b = before ++ [k] ∧ k.nextOp ≠ none ∧ f = .stackUnderflow k.pc) ∧
      (∀ k ∈ m.fetched (.step .empty), k.executeNext.failure = none) ∧
      ((m.turn b).machine.turn b).events = [] ∧
      (m.latchKeys (.single 4)).machine.reg 3 = 4 ∧
      Alternates (.waiting 3)
        (((m.turns [b]).flatMap Turn.events).filterMap (Event.record? .info)) .running := by
  intro early m b f
  have start : Reachable early := (Reachable.built (.blank _ _)).run _
  have reachable : Reachable m := start.after _
  have alive : m.fault = none := by decide +kernel
  have still : (m.turn (.step .empty)).machine.fault = none := by decide +kernel
  have halted : (m.turn b).machine.fault = some f := by decide +kernel
  have logged : .notice (.keyStored 4 3) ∈ (m.turn b).events := by decide +kernel
  have returned : (m.fetched b).filterMap reading = [⟨0x002, 0x00EE, .ret⟩] := by decide +kernel
  obtain ⟨first, -⟩ := start.log_tells_execution
  obtain ⟨-, ⟨-, waits, -⟩, -⟩ := first (.step .empty)
  obtain ⟨turns, runs⟩ := reachable.log_tells_execution
  obtain ⟨-, ⟨notes, traces, unique, -⟩, ⟨faults, -⟩, keys⟩ := turns b
  obtain ⟨errors, -, fails⟩ := faults alive
  obtain ⟨last, before, k, split, -, reason⟩ := fails f halted
  obtain ⟨-, -, ⟨calm, -⟩, -⟩ := turns (.step .empty)
  obtain ⟨-, succeed, -⟩ := calm alive
  obtain ⟨later, -⟩ := (reachable.act (.beat b)).log_tells_execution
  obtain ⟨-, -, ⟨-, silent⟩, -⟩ := later b
  refine ⟨⟨reachable, alive, still, halted, logged⟩, waits.trans ?_, notes.trans returned,
    traces.trans ?_, fun r fits same => ?_, errors.trans ?_, last,
    ⟨before, k, split, ?_⟩, succeed still, silent ?_, (keys 4 3 logged).2.2, ?_⟩
  · decide +kernel
  · decide +kernel
  · refine unique ⟨0x002, 0x00EE, .ret⟩ ?_ r fits (same.trans ?_)
    · exact returned ▸ List.mem_singleton_self _
    · decide +kernel
  · decide +kernel
  · obtain ⟨-, unknown, -⟩ | ⟨known, ⟨overflow, -⟩ | ⟨underflow, -⟩⟩ := reason
    · exact Fault.noConfusion unknown
    · exact Fault.noConfusion overflow
    · exact ⟨known, underflow⟩
  · show (m.turn b).machine.fault ≠ none
    rw [halted]
    exact Option.some_ne_none f
  · have waits : m.mode = .waiting 3 := by decide +kernel
    have runs' : (m.after [b]).mode = .running := by decide +kernel
    have whole := runs [b]
    rwa [waits, runs'] at whole

end Machine

end Chip8
