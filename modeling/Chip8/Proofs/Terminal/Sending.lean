import Mathlib.Data.List.Basic
import Chip8.Terminal.Pipe

/-!
# Sending over a pipe

A pipe takes the first bytes of what is sent over it, as many as it has room for, and sending fails
if bytes are left over, or if the pipe does not flush.

* `Pipe.Taken` : what a pipe becomes when some bytes are meant for it.
* `Pipe.Taken.trans` : so it is known for bytes that are meant for it one after the other, whatever
  was lost before.
* `Pipe.failure_send_iff` : when sending fails.
* `Pipe.sendEach_eq` : it makes no difference how a text is cut into pieces, which are written one
  by one until one fails.
-/

namespace Chip8

namespace Pipe

/-- `Taken p bytes q` : some bytes were meant for `p`, and it has become `q`, whatever failures were
counted. -/
structure Taken (p : Pipe) (bytes : ByteArray) (q : Pipe) : Prop where
  taken : q.taken = p.taken ++ bytes.extract 0 (p.room.getD bytes.size)
  room : q.room = p.room.map (· - bytes.size)
  stuck : q.stuck = p.stuck

/-- Write pieces of text until one fails. -/
def writeEach (p : Pipe) : List String → Pipe × Option IoFailure
  | [] => (p, none)
  | text :: texts =>
    match p.write text.toUTF8 with
    | (p, some failure) => (p, some failure)
    | (p, none) => p.writeEach texts

/-- Write pieces of text and flush, stopping at the first failure. -/
def sendEach (p : Pipe) (texts : List String) : Pipe × Option IoFailure :=
  match p.writeEach texts with
  | (p, some failure) => (p, some failure)
  | (p, none) => p.flush

variable {p q r : Pipe} {bytes more : ByteArray}

/-- A text that follows another one is sent as the bytes that follow those of the other one. -/
theorem toUTF8_append (text text' : String) :
    (text ++ text').toUTF8 = text.toUTF8 ++ text'.toUTF8 := String.toByteArray_append

theorem extract_of_le {n : Nat} (h : bytes.size ≤ n) : bytes.extract 0 n = bytes := by
  rw [← Nat.max_eq_left h, ByteArray.extract_zero_max_size]

/-! ### Writing -/

/-- What fits is written. -/
theorem write_of_fits (h : ∀ room, p.room = some room → bytes.size ≤ room) :
    p.write bytes =
      ({ p with taken := p.taken ++ bytes, room := p.room.map (· - bytes.size) }, none) := by
  unfold write
  cases room : p.room with
  | none => simp
  | some n => simp [h n room]

/-- Of what does not fit the first bytes are written. -/
theorem write_of_lt {room : Nat} (limited : p.room = some room) (h : room < bytes.size) :
    p.write bytes =
      fail { p with taken := p.taken ++ bytes.extract 0 room, room := some 0 } .brokenPipe
        "write" := by
  unfold write
  rw [limited]
  exact if_neg (Nat.not_le.2 h)

theorem fits_or_lt (p : Pipe) (bytes : ByteArray) :
    (∀ room, p.room = some room → bytes.size ≤ room) ∨
      ∃ room, p.room = some room ∧ room < bytes.size := by
  by_cases h : ∃ room, p.room = some room ∧ room < bytes.size
  · exact .inr h
  · exact .inl fun room limited => Nat.not_lt.1 fun less => h ⟨room, limited, less⟩

theorem taken_write (p : Pipe) (bytes : ByteArray) : Taken p bytes (p.write bytes).1 := by
  obtain fits | ⟨room, limited, less⟩ := p.fits_or_lt bytes
  · rw [write_of_fits fits]
    refine ⟨?_, rfl, rfl⟩
    cases room : p.room with
    | none => simp
    | some n => simp [extract_of_le (fits n room)]
  · rw [write_of_lt limited less]
    refine ⟨?_, ?_, rfl⟩
    · simp [fail, limited]
    · simp [fail, limited, Nat.sub_eq_zero_of_le (Nat.le_of_lt less)]

theorem failure_write_iff :
    (p.write bytes).2 ≠ none ↔ ∃ room, p.room = some room ∧ room < bytes.size := by
  obtain fits | ⟨room, limited, less⟩ := p.fits_or_lt bytes
  · rw [write_of_fits fits]
    refine ⟨fun h => absurd rfl h, ?_⟩
    rintro ⟨room, limited, less⟩
    exact absurd less (Nat.not_lt.2 (fits room limited))
  · rw [write_of_lt limited less]
    exact ⟨fun _ => ⟨room, limited, less⟩, fun _ => nofun⟩

/-! ### Bytes one after the other -/

theorem Taken.refl (p : Pipe) : Taken p .empty p where
  taken := by rw [extract_of_le (Nat.zero_le _), ByteArray.append_empty]
  room := by cases p.room <;> simp
  stuck := rfl

/-- Bytes that are meant for a pipe one after the other. -/
theorem Taken.trans (h : Taken p bytes q) (h' : Taken q more r) : Taken p (bytes ++ more) r where
  taken := by
    rw [h'.taken, h.taken, h.room, ByteArray.append_assoc]
    cases p.room with
    | none =>
      simp only [Option.map_none, Option.getD_none, ByteArray.extract_zero_size]
    | some n => simp [ByteArray.extract_append]
  room := by
    rw [h'.room, h.room, Option.map_map, ByteArray.size_append]
    exact congrArg (fun g => p.room.map g) (funext fun n => Nat.sub_sub n _ _)
  stuck := h'.stuck.trans h.stuck

/-- A pipe without a bound takes all bytes, and stays without one. -/
theorem Taken.of_unlimited (h : Taken p bytes q) (unlimited : p.room = none) :
    q.room = none ∧ q.taken = p.taken ++ bytes := by
  rw [h.room, h.taken, unlimited, Option.getD_none, ByteArray.extract_zero_size]
  exact ⟨rfl, rfl⟩

/-! ### Sending -/

theorem taken_flush (p : Pipe) : Taken p .empty p.flush.1 := by
  unfold flush
  split
  · exact ⟨(Taken.refl p).taken, (Taken.refl p).room, rfl⟩
  · exact .refl p

theorem taken_send (p : Pipe) (text : String) : Taken p text.toUTF8 (p.send text).1 := by
  have written := p.taken_write text.toUTF8
  unfold send
  split
  · rename_i q failure sent
    rw [sent] at written
    exact written
  · rename_i q sent
    rw [sent] at written
    have flushed := written.trans q.taken_flush
    rwa [ByteArray.append_empty] at flushed

/-- **When sending fails.** -/
theorem failure_send_iff (p : Pipe) (text : String) :
    (p.send text).2 ≠ none ↔
      p.stuck = true ∨ ∃ room, p.room = some room ∧ room < text.toUTF8.size := by
  rw [← failure_write_iff]
  unfold send
  split
  · rename_i q failure sent
    rw [sent]
    simp
  · rename_i q sent
    have stuck := (p.taken_write text.toUTF8).stuck
    rw [sent] at stuck
    rw [sent, ← stuck, flush]
    cases q.stuck <;> simp [fail]

/-! ### Pieces -/

theorem write_append (p : Pipe) (bytes more : ByteArray) :
    p.write (bytes ++ more) =
      match p.write bytes with
      | (q, some failure) => (q, some failure)
      | (q, none) => q.write more := by
  obtain fits | ⟨room, limited, less⟩ := p.fits_or_lt bytes
  · -- the rest meets the pipe that the first bytes have left
    let q : Pipe := { p with taken := p.taken ++ bytes, room := p.room.map (· - bytes.size) }
    have first : p.write bytes = (q, none) := write_of_fits fits
    rw [first]
    show _ = q.write more
    obtain all | ⟨room, limited, less⟩ := p.fits_or_lt (bytes ++ more)
    · have rest : ∀ left, q.room = some left → more.size ≤ left := by
        intro left known
        obtain ⟨room, limited, rfl⟩ := Option.map_eq_some_iff.1 known
        have whole := all room limited
        rw [ByteArray.size_append] at whole
        exact Nat.le_sub_of_add_le' whole
      rw [write_of_fits all, write_of_fits rest]
      simp only [q, ByteArray.append_assoc, ByteArray.size_append, Option.map_map,
        Function.comp_def, Nat.sub_sub]
    · have enough := fits room limited
      have left : q.room = some (room - bytes.size) := congrArg (Option.map _) limited
      have rest : room - bytes.size < more.size := by
        rw [ByteArray.size_append] at less
        exact Nat.sub_lt_left_of_lt_add enough less
      rw [write_of_lt limited less, write_of_lt left rest, ByteArray.extract_append,
        extract_of_le enough, ← ByteArray.append_assoc, Nat.zero_sub]
  · have whole : room < (bytes ++ more).size := by
      rw [ByteArray.size_append]
      exact Nat.lt_add_right _ less
    rw [write_of_lt limited less, write_of_lt limited whole, ByteArray.extract_append,
      Nat.sub_eq_zero_of_le (Nat.le_of_lt less), Nat.zero_sub, ByteArray.extract_same,
      ByteArray.append_empty]
    rfl

theorem writeEach_eq (p : Pipe) (texts : List String) :
    p.writeEach texts = p.write (String.join texts).toUTF8 := by
  induction texts generalizing p with
  | nil =>
    have fits : ∀ room, p.room = some room → (String.join []).toUTF8.size ≤ room :=
      fun room _ => Nat.zero_le room
    have room : p.room.map (· - (String.join []).toUTF8.size) = p.room := Option.map_id'
    have taken : p.taken ++ (String.join []).toUTF8 = p.taken := ByteArray.append_empty
    rw [writeEach, write_of_fits fits, room, taken]
  | cons text texts ih =>
    rw [writeEach, String.join_cons, toUTF8_append, write_append]
    simp only [ih]

/-- **It makes no difference how a text is cut into pieces.** -/
theorem sendEach_eq (p : Pipe) (texts : List String) :
    p.sendEach texts = p.send (String.join texts) := by
  let finish : Pipe × Option IoFailure → Pipe × Option IoFailure
    | (q, some failure) => (q, some failure)
    | (q, none) => q.flush
  exact congrArg finish (p.writeEach_eq texts)

end Pipe

end Chip8
