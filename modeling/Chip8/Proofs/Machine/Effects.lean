import Chip8.Proofs.Machine.Runs

/-!
# Picture and timers

Two instructions draw on the picture, and one sets each timer; all others leave picture and timers
alone, and so does an instruction that fails.

* `Machine.touches_of_ok` : what an instruction that succeeds does to picture and timers.
* `Machine.touches_act_execute` : the same for one that may fail.
-/

namespace Chip8

/-- The two timers of a machine. -/
inductive Clock where
  | delay
  | sound
  deriving DecidableEq

/-- Whether an instruction draws on the picture. -/
def Instruction.paints : Instruction → Bool
  | .clearScreen | .draw .. => true
  | _ => false

/-- The register whose value an instruction puts into a timer. -/
def Instruction.sets? : Clock → Instruction → Option Register
  | .delay, .setDelay x => some x
  | .sound, .setSound x => some x
  | _, _ => none

namespace Machine

/-- The value of a timer. -/
def clock (m : Machine) : Clock → UInt8
  | .delay => m.delay.value
  | .sound => m.sound.value

/-- What an instruction does to picture and timers. -/
structure Touches (op : Instruction) (m n : Machine) : Prop where
  stale : n.stale = (op.paints || m.stale)
  frame : op.paints = false → n.frame = m.frame
  clock : ∀ c, n.clock c = ((op.sets? c).map m.reg).getD (m.clock c)

variable {m : Machine} {op : Instruction}

/-- An instruction that neither draws nor sets a timer. -/
theorem touches_of_same {n : Machine} (plain : op.paints = false) (none : ∀ c, op.sets? c = none)
    (stale : n.stale = m.stale) (frame : n.frame = m.frame) (delay : n.delay = m.delay)
    (sound : n.sound = m.sound) : Touches op m n := by
  refine ⟨?_, fun _ => frame, fun c => ?_⟩
  · rw [plain, stale, Bool.false_or]
  · cases c <;> simp only [none, clock, delay, sound, Option.map_none, Option.getD_none]

theorem touches_of_error {f : Fault} (h : m.execute op = .error f) : Touches op m m := by
  rcases execute_eq_error_iff.1 h with ⟨rfl, -⟩ | ⟨⟨nnn, rfl⟩, -⟩
  · exact touches_of_same rfl (by rintro (_ | _) <;> rfl) rfl rfl rfl rfl
  · exact touches_of_same rfl (by rintro (_ | _) <;> rfl) rfl rfl rfl rfl

theorem touches_of_skipIf {condition : Bool} {e : Effect} (h : m.skipIf condition = .ok e)
    (plain : op.paints = false) (none : ∀ c, op.sets? c = none) : Touches op m e.machine := by
  unfold skipIf at h
  split at h
  · rw [quiet_eq_ok_iff.1 h]
    exact touches_of_same plain none rfl rfl rfl rfl
  · rw [quiet_eq_ok_iff.1 h]
    exact touches_of_same plain none rfl rfl rfl rfl

/-- **What an instruction does to picture and timers.** -/
theorem touches_of_ok {e : Effect} (h : m.execute op = .ok e) : Touches op m e.machine := by
  cases op with
  | clearScreen =>
    rw [quiet_eq_ok_iff.1 h]
    exact ⟨rfl, nofun, by rintro (_ | _) <;> rfl⟩
  | draw x y n =>
    unfold execute drawSprite at h
    generalize Frame.toggleAll _ _ = drawn at h
    rw [quiet_eq_ok_iff.1 h]
    exact ⟨rfl, nofun, by rintro (_ | _) <;> rfl⟩
  | setDelay | setSound =>
    rw [quiet_eq_ok_iff.1 h]
    exact ⟨rfl, fun _ => rfl, by rintro (_ | _) <;> rfl⟩
  | skipIfByte | skipUnlessByte | skipIfSame | skipUnlessSame | skipIfKey | skipUnlessKey =>
    exact touches_of_skipIf h rfl (by rintro (_ | _) <;> rfl)
  | call nnn =>
    simp only [execute, pushCall] at h
    split at h
    · rw [quiet_eq_ok_iff.1 h]
      exact touches_of_same rfl (by rintro (_ | _) <;> rfl) rfl rfl rfl rfl
    · cases h
  | ret =>
    simp only [execute, popCall] at h
    split at h
    · cases h
    · rw [quiet_eq_ok_iff.1 h]
      exact touches_of_same rfl (by rintro (_ | _) <;> rfl) rfl rfl rfl rfl
  | _ =>
    cases h
    exact touches_of_same rfl (by rintro (_ | _) <;> rfl) rfl rfl rfl rfl

/-- An instruction that fails touches neither picture nor timers. -/
theorem touches_act_execute (m : Machine) (op : Instruction) :
    Touches op m (m.act (.execute op)) := by
  cases done : m.execute op with
  | ok e => simpa only [act, done] using touches_of_ok done
  | error f => simpa only [act, done] using touches_of_error done

end Machine

end Chip8
