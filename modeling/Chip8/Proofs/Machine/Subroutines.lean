import Chip8.Proofs.Machine.WellFormed
import Chip8.Proofs.Memory.Installing

/-!
# Calls and returns

A call puts the address behind it on the call stack and the return that matches it takes the address
off again, whatever is executed in between (`Machine.calls_nest`).

Inside of a call the stack never sinks below what the call left.  As nothing but calls and returns
changes the stack, this part of it stays as it is; and at the matching return there are as many
calls as returns behind, so it is all there is.

* `Machine.stack_executeNext` : what an instruction that succeeds does to the call stack.
* `Machine.Thread.depth` : the depth of the call stack counts the calls that are open.
* `Machine.Thread.suffix` : the part of the stack that returns do not reach stays.
-/

namespace Chip8

namespace Machine

/-- Whether the next instruction is a call. -/
def atCall (m : Machine) : Bool :=
  match m.nextOp with
  | some (.call _) => true
  | _ => false

/-- Whether the next instruction is a return. -/
def atRet (m : Machine) : Bool :=
  match m.nextOp with
  | some .ret => true
  | _ => false

/-- Whether the next instruction succeeds. -/
def succeeds (m : Machine) : Bool := m.executeNext.failure.isNone

/-- How many of the machines are at a call. -/
def calls (ms : List Machine) : Nat := ms.countP atCall

/-- How many of the machines are at a return. -/
def returns (ms : List Machine) : Nat := ms.countP atRet

/-- The call at `k` and the return at `n` match: after the instructions at `ms` in between, the
return is the first to bring the number of returns up to that of calls. -/
structure Matching (k : Machine) (ms : List Machine) (n : Machine) : Prop where
  /-- A call comes first. -/
  call : k.atCall = true
  /-- In between more calls than returns were executed. -/
  inside : ∀ ps, ps <+: ms → returns (k :: ps) < calls (k :: ps)
  /-- At last as many calls as returns were executed. -/
  level : returns (k :: ms ++ [n]) = calls (k :: ms ++ [n])

variable {m n k : Machine} {ms : List Machine}

/-! ### One instruction -/

theorem atCall_iff : m.atCall = true ↔ ∃ nnn, m.nextOp = some (.call nnn) := by
  unfold atCall
  split
  · rename_i nnn next
    exact ⟨fun _ => ⟨nnn, next⟩, fun _ => rfl⟩
  · rename_i other
    exact ⟨nofun, fun ⟨nnn, next⟩ => (other nnn next).elim⟩

theorem atRet_iff : m.atRet = true ↔ m.nextOp = some .ret := by
  unfold atRet
  split
  · rename_i next
    exact ⟨fun _ => next, fun _ => rfl⟩
  · rename_i other
    exact ⟨nofun, fun next => (other next).elim⟩

theorem succeeds_iff : m.succeeds = true ↔ m.executeNext.failure = none :=
  Option.isNone_iff_eq_none

/-- An instruction that succeeds opens a call, closes one, or leaves the call stack alone. -/
theorem stack_executeNext (ok : m.executeNext.failure = none) :
    (m.atCall = true ∧ m.atRet = false ∧
      m.executeNext.machine.stack = Memory.wrap (m.pc + 2) :: m.stack) ∨
    (m.atCall = false ∧ m.atRet = true ∧
      m.stack = m.executeNext.machine.pc :: m.executeNext.machine.stack) ∨
    (m.atCall = false ∧ m.atRet = false ∧ m.executeNext.machine.stack = m.stack) := by
  rcases executeNext_cases m with ⟨f, said, failed, -⟩ | ⟨op, e, next, outcome, done⟩
  · rw [failed] at ok
    cases ok
  · rw [done]
    simp only [atCall, atRet, next]
    cases outcome with
    | call nnn room => exact .inl ⟨rfl, rfl, rfl⟩
    | ret a rest top => exact .inr (.inl ⟨rfl, rfl, top⟩)
    | wait x => exact .inr (.inr ⟨rfl, rfl, rfl⟩)
    | roll x mask => exact .inr (.inr ⟨rfl, rfl, rfl⟩)
    | ordinary plain keeps =>
      refine .inr (.inr ⟨?_, ?_, keeps.stack⟩)
      · cases op <;> first | rfl | cases plain
      · cases op <;> first | rfl | cases plain

theorem stack_of_atCall (call : m.atCall = true) (ok : m.executeNext.failure = none) :
    m.executeNext.machine.stack = Memory.wrap (m.pc + 2) :: m.stack := by
  rcases stack_executeNext ok with ⟨-, -, stack⟩ | ⟨other, -⟩ | ⟨other, -⟩
  · exact stack
  · cases call.symm.trans other
  · cases call.symm.trans other

theorem stack_of_atRet (ret : m.atRet = true) (ok : m.executeNext.failure = none) :
    m.stack = m.executeNext.machine.pc :: m.executeNext.machine.stack := by
  rcases stack_executeNext ok with ⟨-, other, -⟩ | ⟨-, -, stack⟩ | ⟨-, other, -⟩
  · cases ret.symm.trans other
  · exact stack
  · cases ret.symm.trans other

/-- An instruction that fails leaves the call stack alone. -/
theorem stack_of_failure {f : Fault} (h : m.executeNext.failure = some f) :
    m.executeNext.machine.stack = m.stack := by
  rw [machine_of_failure h]
  rfl

theorem stack_of_other (call : m.atCall = false) (ret : m.atRet = false) :
    m.executeNext.machine.stack = m.stack := by
  cases failed : m.executeNext.failure with
  | some f => exact stack_of_failure failed
  | none =>
    rcases stack_executeNext failed with ⟨other, -⟩ | ⟨-, other, -⟩ | ⟨-, -, stack⟩
    · cases call.symm.trans other
    · cases ret.symm.trans other
    · exact stack

/-- A call fails if sixteen calls are open. -/
theorem failure_of_atCall (well : WellFormed m) (call : m.atCall = true) {f : Fault} :
    m.executeNext.failure = some f ↔ m.stack.length = 16 ∧ f = .stackOverflow m.pc := by
  obtain ⟨nnn, next⟩ := atCall_iff.1 call
  rw [← well.full_iff, ← currentAddress_advance well.pc]
  simp only [failure_executeNext_iff, next, execute_eq_error_iff]
  constructor
  · rintro (⟨none, -⟩ | ⟨op, same, ⟨rfl, -⟩ | ⟨-, full⟩⟩)
    · cases none
    · cases same
    · exact full
  · intro full
    exact .inr ⟨_, rfl, .inr ⟨⟨nnn, rfl⟩, full⟩⟩

/-- A return fails if no call is open. -/
theorem failure_of_atRet (ret : m.atRet = true) {f : Fault} :
    m.executeNext.failure = some f ↔
      m.stack = [] ∧ f = .stackUnderflow m.advance.currentAddress := by
  have next := atRet_iff.1 ret
  simp only [failure_executeNext_iff, next, execute_eq_error_iff]
  constructor
  · rintro (⟨none, -⟩ | ⟨op, same, ⟨-, empty⟩ | ⟨⟨nnn, rfl⟩, -⟩⟩)
    · cases none
    · exact empty
    · cases same
  · intro empty
    exact .inr ⟨_, rfl, .inl ⟨rfl, empty⟩⟩

/-! ### Counting -/

theorem calls_cons (m : Machine) (ms : List Machine) :
    calls (m :: ms) = calls ms + if m.atCall then 1 else 0 :=
  List.countP_cons

theorem returns_cons (m : Machine) (ms : List Machine) :
    returns (m :: ms) = returns ms + if m.atRet then 1 else 0 :=
  List.countP_cons

/-- An instruction that succeeds and is counted changes the depth by as much as the counts. -/
theorem depth_executeNext (ok : m.executeNext.failure = none) (ms : List Machine) :
    m.executeNext.machine.stack.length + calls ms + returns (m :: ms) =
      m.stack.length + calls (m :: ms) + returns ms := by
  rw [calls_cons, returns_cons]
  rcases stack_executeNext ok with ⟨call, ret, stack⟩ | ⟨call, ret, stack⟩ | ⟨call, ret, stack⟩
  · rw [call, ret, stack, List.length_cons, if_pos rfl, if_neg Bool.false_ne_true]
    omega
  · rw [call, ret, stack, List.length_cons, if_pos rfl, if_neg Bool.false_ne_true]
    omega
  · rw [call, ret, stack, if_neg Bool.false_ne_true]
    omega

/-- **The depth of the call stack counts the calls that are open.** -/
theorem Thread.depth (t : Thread m ms n) :
    n.stack.length + returns (ms.filter succeeds) =
      m.stack.length + calls (ms.filter succeeds) := by
  induction t with
  | idle h => rw [h.stack, returns, calls, List.filter_nil, List.countP_nil, List.countP_nil]
  | @next m k n ms h running ok rest ih =>
    have first := depth_executeNext ok (ms.filter succeeds)
    rw [h.stack] at first
    rw [List.filter_cons_of_pos (succeeds_iff.2 ok)]
    omega
  | @fail m k n f h running failed halted =>
    -- The one instruction of this thread does not count.
    have out : k.succeeds = false := by rw [succeeds, failed, Option.isNone_some]
    rw [List.filter_cons_of_neg (Bool.eq_false_iff.1 out), halted.stack]
    simp only [stack_of_failure failed, h.stack]
    rfl

/-- The part `base` of the call stack that no return reaches stays as it is. -/
theorem Thread.suffix (t : Thread m ms n) (ok : ∀ k ∈ ms, k.executeNext.failure = none)
    {base : List UInt16} (lies : base <:+ m.stack)
    (above : ∀ ps, ps <+: ms → base.length + returns ps ≤ m.stack.length + calls ps) :
    base <:+ n.stack := by
  induction t with
  | idle h => exact h.stack ▸ lies
  | @next m k n ms h running succeed rest ih =>
    obtain ⟨-, later⟩ := List.forall_mem_cons.1 ok
    rw [← h.stack] at lies above
    have bound (ps : List Machine) (front : ps <+: ms) :
        base.length + returns ps ≤ k.executeNext.machine.stack.length + calls ps := by
      have counted := above (k :: ps) (List.cons_prefix_cons.2 ⟨rfl, front⟩)
      have first := depth_executeNext succeed ps
      omega
    refine ih later ?_ bound
    rcases stack_executeNext succeed with ⟨-, -, stack⟩ | ⟨-, -, stack⟩ | ⟨-, -, stack⟩
    · rw [stack]
      exact lies.trans (List.suffix_cons _ _)
    · -- A return that takes off an address of `base` would leave too little on the stack.
      rw [stack] at lies
      rcases List.suffix_cons_iff.1 lies with same | below
      · have short := bound [] List.nil_prefix
        rw [same, List.length_cons, returns, calls, List.countP_nil, List.countP_nil] at short
        omega
      · exact below
    · rw [stack]
      exact lies
  | fail h running failed halted =>
    have succeed := ok _ List.mem_cons_self
    rw [failed] at succeed
    cases succeed

/-! ### Calls and the returns that match them -/

/-- The last instruction of a call is a return, and the number of returns was up to that of calls
less one before. -/
theorem Matching.ret (h : Matching k ms n) :
    n.atRet = true ∧ n.atCall = false ∧ returns ms = calls ms := by
  have inside := h.inside ms List.prefix_rfl
  have level := h.level
  simp only [calls, returns, List.countP_append, List.countP_singleton] at inside level ⊢
  have ret : n.atRet = true := by
    cases other : n.atRet with
    | true => rfl
    | false =>
      simp only [other, Bool.false_eq_true, if_false] at level
      omega
  have call : n.atCall = false := by
    rw [atCall, atRet_iff.1 ret]
  have single : k.atRet = false := by
    obtain ⟨nnn, next⟩ := atCall_iff.1 h.call
    rw [atRet, next]
  refine ⟨ret, call, ?_⟩
  simp only [ret, call, single, h.call, List.countP_cons, if_true, Bool.false_eq_true,
    if_false] at level
  omega

/-- **The return that matches a call leads back behind it and leaves the call stack as it was.** -/
theorem Thread.matching {l : Machine} {front rest : List Machine}
    (t : Thread m (front ++ k :: (ms ++ n :: rest)) l) (h : Matching k ms n) :
    n.executeNext.failure = none ∧ n.executeNext.machine.stack = k.stack ∧
      n.executeNext.machine.pc = Memory.wrap (k.pc + 2) ∧
      (rest = [] → l.stack = k.stack ∧ l.pc = Memory.wrap (k.pc + 2)) := by
  obtain ⟨ret, call, level⟩ := h.ret
  have ⟨entered, back⟩ : k.executeNext.failure = none ∧
      Thread k.executeNext.machine (ms ++ n :: rest) l := by
    obtain ⟨-, -, more | ⟨f, -, nothing, -⟩⟩ := t.split
    · exact more
    · cases List.append_ne_nil_of_right_ne_nil ms (List.cons_ne_nil n rest) nothing
  obtain ⟨between, succeed, last⟩ := back.split
  have pushed := stack_of_atCall h.call entered
  -- What the call left is below all that the instructions in between return to, and in the end it
  -- is the whole stack.
  have lies : Memory.wrap (k.pc + 2) :: k.stack <:+ n.stack := by
    refine between.suffix succeed (pushed ▸ List.suffix_rfl) fun ps front => ?_
    have inside := h.inside ps front
    rw [calls_cons, returns_cons, h.call, if_pos rfl] at inside
    rw [pushed]
    omega
  have depth := between.depth
  rw [List.filter_eq_self.2 fun j mem => succeeds_iff.2 (succeed j mem), pushed] at depth
  have whole : Memory.wrap (k.pc + 2) :: k.stack = n.stack := lies.eq_of_length (by omega)
  have ok : n.executeNext.failure = none := by
    cases failed : n.executeNext.failure with
    | none => rfl
    | some f =>
      obtain ⟨empty, -⟩ := (failure_of_atRet ret).1 failed
      rw [empty] at whole
      cases whole
  have popped := (stack_of_atRet ret ok).symm
  obtain ⟨pc, stack⟩ := List.cons.inj (popped.trans whole.symm)
  refine ⟨ok, stack, pc, ?_⟩
  rintro rfl
  rcases last with ⟨-, left⟩ | ⟨f, failed, -⟩
  · cases left with
    | idle idle => exact ⟨idle.stack.trans stack, idle.pc.trans pc⟩
  · rw [ok] at failed
    cases failed

/-! ### Runs -/

theorem stack_of_built (h : Built m) : m.stack = [] := by
  obtain ⟨tuning, dice, memory, rfl⟩ := blank_of_built h
  rfl

/-- At every instruction of a run of a machine that was built the depth of the call stack is the
number of calls less that of returns. -/
theorem depth_of_split (built : Built m) {bs : List Beat} {front rest : List Machine}
    (split : m.trail bs = front ++ k :: rest) :
    (∀ j ∈ front, j.executeNext.failure = none) ∧
      k.stack.length + returns front = calls front := by
  obtain ⟨before, succeed, -⟩ := (split ▸ thread_trail m bs).split
  have depth := before.depth
  rw [List.filter_eq_self.2 fun j mem => succeeds_iff.2 (succeed j mem), stack_of_built built,
    List.length_nil, Nat.zero_add] at depth
  exact ⟨succeed, depth⟩

/-- **Calls nest.**  Of any run of a machine this says:

* the first instruction is executed with the call stack and the program counter that the machine
  had;
* the return that matches a call succeeds, leaves the call stack as it was at the call, and leads to
  the address behind the call;

and if the machine was just built:

* the depth of the call stack is the number of calls that succeeded less that of returns;
* a call fails exactly if sixteen calls are open, a return exactly if none is open;
* no other instruction changes the call stack, and none that fails does, which halts the machine. -/
theorem calls_nest (m : Machine) (bs : List Beat) :
    (∀ k rest, m.trail bs = k :: rest →
      k.stack = m.stack ∧ k.pc = m.pc ∧ k.nextOp = m.nextOp) ∧
    (∀ front k ms n rest, m.trail bs = front ++ k :: (ms ++ n :: rest) → Matching k ms n →
      n.nextOp = some .ret ∧ n.executeNext.failure = none ∧
        n.executeNext.machine.stack = k.stack ∧
        n.executeNext.machine.pc.toNat = (k.pc.toNat + 2) % 4096 ∧
        (rest = [] → (m.after bs).stack = k.stack ∧
          (m.after bs).pc.toNat = (k.pc.toNat + 2) % 4096)) ∧
    (Built m →
      (m.after bs).stack.length + returns ((m.trail bs).filter succeeds) =
        calls ((m.trail bs).filter succeeds) ∧
      ∀ front k rest, m.trail bs = front ++ k :: rest →
        (∀ j ∈ front, j.executeNext.failure = none) ∧
        k.stack.length + returns front = calls front ∧
        (k.atCall = true →
          (∀ f, k.executeNext.failure = some f ↔
            calls front = returns front + 16 ∧ f = .stackOverflow k.pc) ∧
          (k.executeNext.failure = none →
            k.executeNext.machine.stack = Memory.wrap (k.pc + 2) :: k.stack)) ∧
        (k.atRet = true →
          (∀ f, k.executeNext.failure = some f ↔
            calls front = returns front ∧ f = .stackUnderflow k.pc) ∧
          (k.executeNext.failure = none →
            k.stack = k.executeNext.machine.pc :: k.executeNext.machine.stack)) ∧
        (k.atCall = false → k.atRet = false → k.executeNext.machine.stack = k.stack) ∧
        ∀ f, k.executeNext.failure = some f →
          k.executeNext.machine.stack = k.stack ∧ rest = [] ∧ (m.after bs).fault = some f) := by
  have run := thread_trail m bs
  have behind (k : Machine) : (Memory.wrap (k.pc + 2)).toNat = (k.pc.toNat + 2) % 4096 := by
    rw [Memory.toNat_wrap, UInt16.toNat_add]
    exact Nat.mod_mod_of_dvd _ (by decide)
  refine ⟨?_, ?_, ?_⟩
  · intro k rest split
    have whole : Thread m ([] ++ k :: rest) (m.after bs) := split ▸ run
    obtain ⟨before, -, -⟩ := whole.split
    cases before with
    | idle idle => exact ⟨idle.stack, idle.pc, idle.nextOp⟩
  · intro front k ms n rest split h
    obtain ⟨ok, stack, pc, last⟩ := Thread.matching (split ▸ run) h
    refine ⟨atRet_iff.1 h.ret.1, ok, stack, pc ▸ behind k, ?_⟩
    intro none
    obtain ⟨same, back⟩ := last none
    exact ⟨same, back ▸ behind k⟩
  · intro built
    have depth := run.depth
    rw [stack_of_built built, List.length_nil, Nat.zero_add] at depth
    refine ⟨depth, ?_⟩
    intro front k rest split
    have fetched : k ∈ m.trail bs := split ▸ List.mem_append_right front List.mem_cons_self
    have well := (wellFormed_of_built built).trail bs k fetched
    obtain ⟨succeed, opened⟩ := depth_of_split built split
    refine ⟨succeed, opened, ?_, ?_, stack_of_other, ?_⟩
    · intro call
      refine ⟨fun f => ?_, stack_of_atCall call⟩
      rw [failure_of_atCall well call]
      refine and_congr_left fun _ => ?_
      omega
    · intro ret
      refine ⟨fun f => ?_, stack_of_atRet ret⟩
      rw [failure_of_atRet ret, currentAddress_advance well.pc, ← List.length_eq_zero_iff]
      refine and_congr_left fun _ => ?_
      omega
    · intro f failed
      obtain ⟨-, -, ⟨ok, -⟩ | ⟨g, same, nothing, halted⟩⟩ := (split ▸ run).split
      · rw [failed] at ok
        cases ok
      · rw [failed] at same
        cases same
        exact ⟨stack_of_failure failed, nothing, halted⟩

/-- A program whose subroutine calls another one: the second return matches the first call, the
first return the second call.  The third return finds no call open. -/
theorem calls_nest_of_nested :
    let dice := Dice.ofFaces fun _ => 0
    let program := #[0x22, 0x04, 0x00, 0xEE, 0x22, 0x08, 0x00, 0xEE, 0x00, 0xEE]
    let m := { blank .standard dice with
      memory := Memory.zero.installFont.overlay Memory.programStart.toNat program }
    let bs := List.replicate 4 (Beat.step .empty)
    let all := List.replicate 5 (Beat.step .empty)
    Built m ∧
      (∃ a b c d, m.trail bs = [a, b, c, d] ∧ Matching a [b, c] d ∧ Matching b [] c ∧
        c.executeNext.machine.pc.toNat = (b.pc.toNat + 2) % 4096 ∧
        d.executeNext.failure = none ∧ (m.after bs).stack = m.stack ∧
        (m.after bs).pc.toNat = (m.pc.toNat + 2) % 4096 ∧
        [a, b, c, d, m.after bs].map (·.stack.length) = [0, 1, 2, 1, 0]) ∧
      ∃ front k, m.trail all = front ++ [k] ∧ k.executeNext.failure = some (.stackUnderflow k.pc) ∧
        (m.after all).fault = some (.stackUnderflow k.pc) := by
  intro dice program m bs all
  have loaded : ofProgram dice program =
      .ok ⟨m, [.notice .fontInstalled, .notice (.programInstalled program.size)]⟩ := rfl
  have built : Built m := ⟨_, .ofProgram loaded⟩
  have shape : (m.trail all).map (fun k => (k.atCall, k.atRet)) =
      [(true, false), (true, false), (false, true), (false, true), (false, true)] := by
    simp only [m, Memory.installFont, Memory.overlay, Memory.ofFn_eq_mk]
    decide +kernel
  have short : (m.trail bs).map (fun k => (k.atCall, k.atRet)) =
      [(true, false), (true, false), (false, true), (false, true)] := by
    simp only [m, Memory.installFont, Memory.overlay, Memory.ofFn_eq_mk]
    decide +kernel
  obtain ⟨first, nest, counts⟩ := calls_nest m bs
  obtain ⟨-, -, later⟩ := calls_nest m all
  obtain ⟨-, depths⟩ := counts built
  obtain ⟨-, ends⟩ := later built
  refine ⟨built, ?_, ?_⟩
  · simp only [List.map_eq_cons_iff, Prod.mk.injEq, List.map_eq_nil_iff] at short
    obtain ⟨a, _, split, ⟨ca, ra⟩, b, _, rfl, ⟨cb, rb⟩, c, _, rfl, ⟨cc, rc⟩, d, _, rfl, ⟨cd, rd⟩,
      rfl⟩ := short
    have outer : Matching a [b, c] d := by
      refine ⟨ca, fun ps front => ?_, ?_⟩
      · rcases List.prefix_cons_iff.1 front with rfl | ⟨_, rfl, inner⟩
        · simp [calls, returns, ca, ra]
        · rcases List.prefix_cons_iff.1 inner with rfl | ⟨_, rfl, last⟩
          · simp [calls, returns, ca, cb, ra, rb]
          · obtain rfl := List.prefix_nil.1 last
            simp [calls, returns, ca, cb, cc, ra, rb, rc]
      · simp [calls, returns, ca, cb, cc, cd, ra, rb, rc, rd]
    have inner : Matching b [] c := by
      refine ⟨cb, fun ps front => ?_, ?_⟩
      · obtain rfl := List.prefix_nil.1 front
        simp [calls, returns, cb, rb]
      · simp [calls, returns, cb, cc, rb, rc]
    obtain ⟨stack, pc, -⟩ := first _ _ split
    obtain ⟨-, -, -, back, -⟩ := nest [a] b [] c [d] split inner
    obtain ⟨-, ok, -, -, whole⟩ := nest [] a [b, c] d [] split outer
    obtain ⟨same, behind⟩ := whole rfl
    obtain ⟨-, atB, -⟩ := depths [a] b [c, d] split
    obtain ⟨-, atC, -⟩ := depths [a, b] c [d] split
    obtain ⟨-, atD, -⟩ := depths [a, b, c] d [] split
    have levelB : b.stack.length = 1 := by simpa [calls, returns, ca, ra] using atB
    have levelC : c.stack.length = 2 := by simpa [calls, returns, ca, cb, ra, rb] using atC
    have levelD : d.stack.length = 1 := by
      simpa [calls, returns, ca, cb, cc, ra, rb, rc] using atD
    refine ⟨a, b, c, d, split, outer, inner, back, ok, stack ▸ same, pc ▸ behind, ?_⟩
    simp only [List.map_cons, List.map_nil, same, stack, levelB, levelC, levelD,
      stack_of_built built, List.length_nil]
  · simp only [List.map_eq_cons_iff, Prod.mk.injEq, List.map_eq_nil_iff] at shape
    obtain ⟨a, _, split, ⟨ca, ra⟩, b, _, rfl, ⟨cb, rb⟩, c, _, rfl, ⟨cc, rc⟩, d, _, rfl, ⟨cd, rd⟩,
      e, _, rfl, ⟨-, re⟩, rfl⟩ := shape
    obtain ⟨-, -, -, empty, -, halts⟩ := ends [a, b, c, d] e [] split
    have failed : e.executeNext.failure = some (.stackUnderflow e.pc) := by
      refine ((empty re).1 _).2 ⟨?_, rfl⟩
      simp [calls, returns, ca, cb, cc, cd, ra, rb, rc, rd]
    exact ⟨[a, b, c, d], e, split, failed, (halts _ failed).2.2⟩

end Machine

end Chip8
