import Chip8.Proofs.Machine.History
import Chip8.Proofs.Terminal.Life

/-!
# Output that fails

The pipe of a terminal may run out of room, or it may not flush.  Of the output only the end is lost
then, and nothing else is touched (`Terminal.failing_output_is_cut_off`).

* `Terminal.failure_ne_none_iff` : when a moment of a life fails.
* `Terminal.drive_congr` : a machine is driven alike by terminals that differ in their output only.
-/

namespace Chip8

namespace Terminal

/-- The terminal over a new pipe that never fails. -/
def healed (t : Terminal) : Terminal := { t with pipe := .healthy }

/-- The bytes that a life sends over a pipe that never fails. -/
def stream (t : Terminal) (life : List Moment) : ByteArray := (t.healed.run life).pipe.taken

/-- Something that happens to a machine and the terminal that it runs on. -/
inductive Move where
  /-- The machine acts, as the keys say that are down. -/
  | act (a : KeySet → Act)
  /-- Something happens to the terminal. -/
  | moment (x : Moment)

/-- A machine and its terminal after a move.  The terminal answers the calls that the machine
makes. -/
def move (s : Machine × Terminal) : Move → Machine × Terminal
  | .act a => (s.1.act (a s.2.down), s.2.run ((s.1.said (a s.2.down)).map .call))
  | .moment x => (s.1, s.2.happen x)

/-- A machine and its terminal after some moves. -/
def drive (s : Machine × Terminal) (moves : List Move) : Machine × Terminal := moves.foldl move s

variable (t : Terminal) {life : List Moment} {x : Moment}

theorem kept_healed : t.kept = t.healed.kept := rfl

/-! ### The bytes of a life -/

theorem stream_eq (life : List Moment) : t.stream life = (t.written life).toUTF8 := by
  have taken : t.stream life = .empty ++ (t.healed.written life).toUTF8 :=
    (taken_run_of_unlimited (t := t.healed) rfl life).2
  have same : t.healed.written life = t.written life := (written_congr t.kept_healed life).symm
  rw [taken, same, ByteArray.empty_append]

theorem stream_concat (life : List Moment) (x : Moment) :
    t.stream (life ++ [x]) = t.stream life ++ (((t.run life).output x).getD "").toUTF8 := by
  rw [stream_eq, stream_eq, written_concat, Pipe.toUTF8_append]

/-! ### Failing -/

theorem size_text (f : Frame) : 0 < (Picture.text f).toUTF8.size := by
  have escape : 0 < "\x1b[".utf8ByteSize := by decide
  show 0 < (Picture.text f).utf8ByteSize
  rw [Picture.text, Picture.lines, List.range_succ_eq_map, List.map_cons, String.join_cons,
    Picture.moveTo]
  simp only [String.utf8ByteSize_append]
  omega

/-- No moment sends the empty text. -/
theorem size_output {text : String} (h : t.output x = some text) : 0 < text.toUTF8.size := by
  obtain ⟨f, -, picture⟩ | ⟨-, none | ring⟩ := t.output_cases x
  · obtain rfl := Option.some.inj (picture.symm.trans h)
    exact size_text f
  · rw [none] at h
    cases h
  · obtain rfl := Option.some.inj (ring.symm.trans h)
    decide

/-- What a moment adds to the stream, if it sends a text. -/
theorem stream_concat_ne_iff :
    t.stream (life ++ [x]) ≠ t.stream life ↔ ∃ text, (t.run life).output x = some text := by
  rw [stream_concat]
  cases sent : (t.run life).output x with
  | none => simp
  | some text =>
    have size := (t.run life).size_output sent
    refine ⟨fun _ => ⟨text, rfl⟩, fun _ same => ?_⟩
    have sizes := congrArg ByteArray.size same
    rw [ByteArray.size_append, Option.getD_some] at sizes
    omega

/-- **When a moment fails.** -/
theorem failure_ne_none_iff :
    (t.run life).failure? x ≠ none ↔
      t.stream (life ++ [x]) ≠ t.stream life ∧
        (t.pipe.stuck = true ∨
          ∃ room, t.pipe.room = some room ∧ room < (t.stream (life ++ [x])).size) := by
  have taken := t.taken_run life
  rw [← stream_eq] at taken
  rw [stream_concat_ne_iff, stream_concat, failure?]
  cases sent : (t.run life).output x with
  | none => simp
  | some text =>
    have size := (t.run life).size_output sent
    -- what is left of the room is compared with this text, the room itself with the whole stream
    have room : (∃ left, (t.run life).pipe.room = some left ∧ left < text.toUTF8.size) ↔
        ∃ room, t.pipe.room = some room ∧ room < (t.stream life ++ text.toUTF8).size := by
      rw [taken.room, ByteArray.size_append]
      cases t.pipe.room with
      | none => simp
      | some room =>
        simp only [Option.map_some, Option.some.injEq, exists_eq_left']
        omega
    rw [Option.bind_some, Pipe.failure_send_iff, taken.stuck, room]
    simp

/-! ### A machine and its terminal -/

/-- Machines that are the same, on terminals that differ in their output only, stay so. -/
theorem move_congr {r s : Machine × Terminal} (alike : r.1 = s.1 ∧ r.2.kept = s.2.kept)
    (x : Move) : (move r x).1 = (move s x).1 ∧ (move r x).2.kept = (move s x).2.kept := by
  obtain ⟨machine, kept⟩ := alike
  cases x with
  | act a =>
    have down : r.2.down = s.2.down := congrArg (·.down) kept
    simp only [move, machine, down]
    exact ⟨trivial, kept_run kept _⟩
  | moment x => exact ⟨machine, happen_congr kept x⟩

theorem drive_congr {r s : Machine × Terminal} (alike : r.1 = s.1 ∧ r.2.kept = s.2.kept)
    (moves : List Move) :
    (drive r moves).1 = (drive s moves).1 ∧ (drive r moves).2.kept = (drive s moves).2.kept := by
  induction moves generalizing r s with
  | nil => exact alike
  | cons x moves ih => exact ih (move_congr alike x)

/-! ### The law -/

/-- **Failing output is cut off, and nothing else comes of it.**  Whatever happens to a terminal,

* a pipe with room for some bytes only takes the first ones of those that are sent over one that
  never fails, and one without a bound takes all of them, flushing or not;
* a moment fails if it sends something, and if either the pipe does not flush or what was sent up to
  its end is more than there was room for;
* it makes no difference how a text is cut into the pieces that are written;
* each failure is logged with one warning;
* the failure that is taken is the first one since a failure was taken last, and the first of all if
  none was;
* all of the terminal but its output evolves as it does over a pipe that never fails, and so does a
  machine that runs on it. -/
theorem failing_output_is_cut_off (t : Terminal) (life : List Moment) :
    let s := t.run life
    ((∀ room, t.pipe.room = some room →
        s.pipe.taken = t.pipe.taken ++ (t.stream life).extract 0 room) ∧
      (t.pipe.room = none → s.pipe.taken = t.pipe.taken ++ t.stream life)) ∧
    (∀ x, s.failure? x ≠ none ↔
      t.stream (life ++ [x]) ≠ t.stream life ∧
        (t.pipe.stuck = true ∨
          ∃ room, t.pipe.room = some room ∧ room < (t.stream (life ++ [x])).size)) ∧
    (∀ texts, s.pipe.sendEach texts = s.pipe.send (String.join texts)) ∧
    (∀ x, s.said x = (s.failure? x).toList.map failureRecord ∧
      ∀ record ∈ s.said x, record.level = .warn) ∧
    ((∀ later, .collect ∉ later →
        ((s.happen .collect).run later).takeFailure.2 =
          ((s.happen .collect).failures later).head?) ∧
      (t.failure = none → .collect ∉ life → s.takeFailure.2 = (t.failures life).head?)) ∧
    s.kept = (t.healed.run life).kept ∧
    ∀ (m : Machine) (moves : List Move),
      (drive (m, t) moves).1 = (drive (m, t.healed) moves).1 ∧
        (drive (m, t) moves).2.kept = (drive (m, t.healed) moves).2.kept := by
  intro s
  have taken := t.taken_run life
  rw [← stream_eq] at taken
  refine ⟨⟨fun room limited => ?_, fun unlimited => ?_⟩, fun x => t.failure_ne_none_iff,
    s.pipe.sendEach_eq, fun x => ⟨s.said_eq x, fun record mem => ?_⟩,
    ⟨fun later none => ?_, fun fresh none => ?_⟩, kept_run t.kept_healed life,
    fun m => drive_congr ⟨rfl, t.kept_healed⟩⟩
  · rw [taken.taken, limited, Option.getD_some]
  · exact (taken.of_unlimited unlimited).2
  · rw [said_eq, List.mem_map] at mem
    obtain ⟨failure, -, rfl⟩ := mem
    rfl
  · exact failure_run _ none
  · rw [takeFailure, failure_run t none, fresh, Option.none_or]

/-- A pipe with room for one byte takes the first of three rings of the bell.  The other two fail,
and the first of their failures is taken; once it was, the next one is.  A pipe that does not flush
takes all three, and the first one fails already. -/
theorem failing_output_is_cut_off_of_rings :
    let ring := Moment.call (.play 0 0)
    let pause := Moment.call .silence
    let life := [ring, pause, ring, .tick, pause, ring]
    let full := «over» ⟨some 1, false, 0, .empty⟩ false
    let stuck := «over» ⟨none, true, 0, .empty⟩ false
    (full.pipe.room = some 1 ∧ full.failure = none ∧ .collect ∉ life ∧ stuck.pipe.room = none) ∧
      (full.run life).pipe.taken = ⟨#[7]⟩ ∧ full.stream life = ⟨#[7, 7, 7]⟩ ∧
      (full.run [ring, pause]).failure? ring ≠ none ∧
      (full.run life).takeFailure.2 = some ⟨.brokenPipe, "write failure 1"⟩ ∧
      (((full.run [ring, pause, ring]).happen .collect).run [.tick, pause, ring]).takeFailure.2 =
        some ⟨.brokenPipe, "write failure 2"⟩ ∧
      (stuck.run life).pipe.taken = ⟨#[7, 7, 7]⟩ ∧ (stuck.run []).failure? ring ≠ none := by
  intro ring pause life full stuck
  have uncollected : .collect ∉ life := by decide
  have sent : full.stream life = ⟨#[7, 7, 7]⟩ := by decide +kernel
  have same : stuck.stream life = ⟨#[7, 7, 7]⟩ := by decide +kernel
  obtain ⟨⟨limited, -⟩, -, -, -, ⟨-, first⟩, -⟩ := failing_output_is_cut_off full life
  obtain ⟨-, fails, -⟩ := failing_output_is_cut_off full [ring, pause]
  obtain ⟨-, -, -, -, ⟨second, -⟩, -⟩ := failing_output_is_cut_off full [ring, pause, ring]
  obtain ⟨⟨-, unlimited⟩, -⟩ := failing_output_is_cut_off stuck life
  obtain ⟨-, unflushed, -⟩ := failing_output_is_cut_off stuck []
  refine ⟨⟨rfl, rfl, uncollected, rfl⟩, ?_, sent, (fails ring).2 (by decide +kernel), ?_, ?_, ?_,
    (unflushed ring).2 (by decide +kernel)⟩
  · rw [limited 1 rfl, sent]
    decide
  · rw [first rfl uncollected]
    decide +kernel
  · rw [second [.tick, pause, ring] (by decide)]
    decide +kernel
  · rw [unlimited rfl, same]
    decide

end Terminal

end Chip8
