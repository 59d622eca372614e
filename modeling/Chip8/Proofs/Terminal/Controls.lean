import Mathlib.Data.List.Infix
import Chip8.Proofs.Terminal.KeyHold
import Chip8.Proofs.Terminal.Screen
import Chip8.Proofs.Text.Ascii

/-!
# Taking the screen over and giving it back

Whatever happens to a terminal between the moment in which it takes the screen over and the one in
which it gives it back, it sends each of the sequences that do so once, and pictures and rings of
the bell in between (`Terminal.givenBack_run`).

* `occurrences_append` : a sequence that breaks off where another text begins does not occur across.
* `Terminal.occurrences_pieces` : no such sequence occurs in pictures and rings of the bell.
-/

namespace Chip8

/-- How often a list occurs in another one. -/
def occurrences (p l : List UInt8) : Nat := l.tails.countP (p.isPrefixOf ·)

section

variable {p l m : List UInt8} {b : UInt8}

/-! ### Occurrences -/

/-- A list that lacks the first element of another one does not reach into it. -/
theorem isPrefix_append_iff (absent : ∀ b ∈ m.head?, b ∉ p) : p <+: l ++ m ↔ p <+: l := by
  refine ⟨fun whole => ?_, fun front => front.trans (List.prefix_append l m)⟩
  obtain front | ⟨rest, rfl⟩ := List.prefix_or_prefix_of_prefix whole (List.prefix_append l m)
  · exact front
  · cases rest with
    | nil => rw [List.append_nil]
    | cons b rest =>
      obtain ⟨tail, rfl⟩ := (List.prefix_append_right_inj l).1 whole
      exact absurd (List.mem_append_right l List.mem_cons_self) (absent b rfl)

theorem occurrences_cons (p : List UInt8) (b : UInt8) (l : List UInt8) :
    occurrences p (b :: l) = occurrences p l + if p <+: b :: l then 1 else 0 := by
  rw [occurrences, List.tails_cons, List.countP_cons]
  simp only [List.isPrefixOf_iff_prefix]
  rfl

/-- **A list does not occur across the place where another one begins**, unless its tail goes on
with the first element of that one. -/
theorem occurrences_append (filled : p ≠ []) (absent : ∀ b ∈ m.head?, b ∉ p.tail) (l : List UInt8) :
    occurrences p (l ++ m) = occurrences p l + occurrences p m := by
  induction l with
  | nil =>
    have none : occurrences p [] = 0 := by
      cases p with
      | nil => exact absurd rfl filled
      | cons => rfl
    rw [List.nil_append, none, Nat.zero_add]
  | cons a l ih =>
    have same : p <+: a :: (l ++ m) ↔ p <+: a :: l := by
      cases p with
      | nil => exact absurd rfl filled
      | cons c p =>
        have inner : p <+: l ++ m ↔ p <+: l := isPrefix_append_iff absent
        rw [List.cons_prefix_cons, List.cons_prefix_cons, inner]
    rw [List.cons_append, occurrences_cons, occurrences_cons, ih, Nat.add_right_comm]
    simp only [same]

theorem occurrences_eq_zero (mem : b ∈ p) (absent : b ∉ l) : occurrences p l = 0 := by
  refine List.countP_eq_zero.2 fun tail suffix front => absent ?_
  exact ((List.mem_tails _ _).1 suffix).subset ((List.isPrefixOf_iff_prefix.1 front).subset mem)

end

namespace Terminal

/-! ### Control sequences -/

/-- The sequences that take the screen over and give it back: the other screen, no cursor, nothing
on it, a cursor again, and the first screen again. -/
def switches : List String := ["\x1b[?1049h", "\x1b[?25l", "\x1b[2J", "\x1b[?25h", "\x1b[?1049l"]

/-- A piece of what a terminal sends while it has the screen. -/
def IsPiece (text : String) : Prop := text = bell ∨ ∃ f, text = Picture.text f

/-- What is sent before the pieces. -/
def opening (able : Bool) : String := enterText ++ queryText ++ if able then pushText else ""

/-- What is sent after them. -/
def ending (able : Bool) : String := (if able then popText else "") ++ leaveText

/-- What a terminal has sent that took the screen over and gave it back, if it was able to tell when
keys go up or was not. -/
structure GivenBack (able : Bool) (sent : ByteArray) : Prop where
  /-- It began with taking the screen over, and ended with giving it back. -/
  shape : ∃ pieces : List String, (∀ text ∈ pieces, IsPiece text) ∧
    sent = (opening able ++ String.join pieces ++ ending able).toUTF8
  /-- Each of the sequences that do so was sent once. -/
  once : ∀ text ∈ switches, occurrences (Ascii.bytes text) sent.data.toList = 1
  /-- It was asked once to tell when keys go up, and once no longer to, if it was able to. -/
  pushed : occurrences (Ascii.bytes pushText) sent.data.toList = able.toNat
  popped : occurrences (Ascii.bytes popText) sent.data.toList = able.toNat

/-! ### What is sent in between -/

theorem written_eq_join (t : Terminal) (life : List Moment) :
    ∃ pieces : List String, (∀ text ∈ pieces, IsPiece text) ∧
      t.written life = String.join pieces := by
  induction life generalizing t with
  | nil => exact ⟨[], nofun, rfl⟩
  | cons x life ih =>
    obtain ⟨pieces, all, join⟩ := ih (t.happen x)
    cases sent : t.output x with
    | none =>
      refine ⟨pieces, all, ?_⟩
      rw [written, sent, join, Option.getD_none, String.empty_append]
    | some text =>
      refine ⟨text :: pieces, List.forall_mem_cons.2 ⟨?_, all⟩, ?_⟩
      · obtain ⟨f, -, picture⟩ | ⟨-, none | ring⟩ := t.output_cases x
        · exact .inr ⟨f, Option.some.inj (sent.symm.trans picture)⟩
        · rw [none] at sent
          cases sent
        · exact .inl (Option.some.inj (sent.symm.trans ring))
      · rw [written, sent, join, Option.getD_some, String.join_cons]

/-- Whether bytes are those of a sequence that pictures and rings of the bell have no part in: they
neither go on with the first byte of one, nor can they do without some byte that is in none. -/
def Foreign (p : List UInt8) : Prop :=
  p ≠ [] ∧ 0x1b ∉ p.tail ∧ 0x07 ∉ p.tail ∧
    ∃ b ∈ p, b.toNat < 128 ∧ b ≠ 0x07 ∧ Screen.spells (Char.ofNat b.toNat) = false

instance (p : List UInt8) : Decidable (Foreign p) :=
  inferInstanceAs (Decidable (_ ∧ _ ∧ _ ∧ _))

theorem foreign_switches :
    ∀ text ∈ pushText :: popText :: switches, Foreign (Ascii.bytes text) := by
  decide

/-- A piece begins with an escape character, or it is the bell. -/
theorem head?_bytes_piece {text : String} (piece : IsPiece text) :
    (Ascii.bytes text).head? = some 0x1b ∨ (Ascii.bytes text).head? = some 0x07 := by
  obtain rfl | ⟨f, rfl⟩ := piece
  · exact .inr (by decide)
  · have escape : Ascii.bytes "\x1b[" = [0x1b, 0x5b] := by decide
    refine .inl ?_
    rw [Picture.text, Picture.lines, List.range_succ_eq_map, List.map_cons, String.join_cons,
      Picture.moveTo]
    simp only [Ascii.bytes_append, escape]
    rfl

theorem not_mem_bytes_piece {b : UInt8} (small : b.toNat < 128) (other : b ≠ 0x07)
    (unspelled : Screen.spells (Char.ofNat b.toNat) = false) {text : String}
    (piece : IsPiece text) : b ∉ Ascii.bytes text := by
  obtain rfl | ⟨f, rfl⟩ := piece
  · have ring : Ascii.bytes bell = [0x07] := by decide
    rw [ring]
    exact fun mem => other (List.mem_singleton.1 mem)
  · refine Ascii.not_mem_bytes small fun c mem same => ?_
    have spelled := Screen.spells_text mem
    rw [← same, Char.ofNat_toNat, spelled] at unspelled
    cases unspelled

variable {p front back : List UInt8} {pieces : List String}

/-- **Such a sequence does not occur in pieces, nor where they meet what was sent before.** -/
theorem occurrences_pieces (foreign : Foreign p) (all : ∀ text ∈ pieces, IsPiece text)
    (next : back.head? = some 0x1b) :
    occurrences p (front ++ (Ascii.bytes (String.join pieces) ++ back)) =
      occurrences p front + occurrences p back := by
  obtain ⟨filled, escape, ring, b, mem, small, other, unspelled⟩ := foreign
  have nowhere : occurrences p (Ascii.bytes (String.join pieces)) = 0 := by
    refine occurrences_eq_zero mem fun inside => ?_
    rw [Ascii.bytes_join] at inside
    obtain ⟨text, piece, inside⟩ := List.mem_flatMap.1 inside
    exact not_mem_bytes_piece small other unspelled (all text piece) inside
  have second : ∀ b ∈ back.head?, b ∉ p.tail := by
    intro b here
    rw [next] at here
    obtain rfl := Option.some.inj here
    exact escape
  have first : ∀ b ∈ (Ascii.bytes (String.join pieces) ++ back).head?, b ∉ p.tail := by
    cases pieces with
    | nil => exact second
    | cons text pieces =>
      intro b here
      rw [Ascii.bytes_join, List.flatMap_cons, List.append_assoc, List.head?_append] at here
      obtain begins | begins := head?_bytes_piece (all text List.mem_cons_self)
      · rw [begins] at here
        obtain rfl := Option.some.inj here
        exact escape
      · rw [begins] at here
        obtain rfl := Option.some.inj here
        exact ring
  rw [occurrences_append filled first, occurrences_append filled second, nowhere, Nat.zero_add]

/-! ### The whole life -/

/-- **What a terminal sends that takes the screen over and gives it back.** -/
theorem givenBack_of_pieces (able : Bool) (all : ∀ text ∈ pieces, IsPiece text) :
    GivenBack able (opening able ++ String.join pieces ++ ending able).toUTF8 := by
  have counts {text : String} (control : text ∈ pushText :: popText :: switches) :
      occurrences (Ascii.bytes text)
          (opening able ++ String.join pieces ++ ending able).toUTF8.data.toList =
        occurrences (Ascii.bytes text) (Ascii.bytes (opening able)) +
          occurrences (Ascii.bytes text) (Ascii.bytes (ending able)) := by
    have next : (Ascii.bytes (ending able)).head? = some 0x1b := by cases able <;> decide
    rw [← occurrences_pieces (foreign_switches text control) all next, ← Ascii.bytes_append,
      ← Ascii.bytes_append, String.append_assoc]
    rfl
  refine ⟨⟨pieces, all, rfl⟩, fun text switch => ?_, ?_, ?_⟩
  · rw [counts (List.mem_cons_of_mem _ (List.mem_cons_of_mem _ switch))]
    revert text
    cases able <;> decide
  · rw [counts (by decide)]
    cases able <;> decide
  · rw [counts (by decide)]
    cases able <;> decide

/-- A new terminal over a pipe that never fails, once it has taken the screen over. -/
def entered (able mute : Bool) : Terminal := («over» .healthy mute).enter able

theorem pipe_entered (able mute : Bool) :
    (entered able mute).pipe.room = none ∧
      (entered able mute).pipe.taken = (opening able).toUTF8 := by
  have asked := (Pipe.healthy.taken_send (enterText ++ queryText)).of_unlimited rfl
  have bytes : Pipe.healthy.taken ++ (enterText ++ queryText).toUTF8 =
      (enterText ++ queryText).toUTF8 := ByteArray.empty_append
  rw [bytes] at asked
  cases able with
  | false =>
    rw [opening, if_neg Bool.false_ne_true, String.append_empty]
    exact asked
  | true =>
    have pushed := (Pipe.taken_send _ pushText).of_unlimited asked.1
    rw [asked.2] at pushed
    rw [opening, if_pos rfl, Pipe.toUTF8_append]
    exact pushed

theorem taken_leave {t : Terminal} (unlimited : t.pipe.room = none) :
    t.leave.pipe.taken = t.pipe.taken ++ (ending t.tellsReleases).toUTF8 := by
  have left {p : Pipe} (unlimited : p.room = none) :=
    ((p.taken_send leaveText).of_unlimited unlimited).2
  unfold leave ending
  cases t.tellsReleases with
  | false =>
    simp only [Bool.false_eq_true, if_false, String.empty_append]
    exact left unlimited
  | true =>
    obtain ⟨unlimited', popped⟩ := (t.pipe.taken_send popText).of_unlimited unlimited
    rw [if_pos rfl, if_pos rfl, Pipe.toUTF8_append, ← ByteArray.append_assoc, ← popped]
    exact left unlimited'

/-- **Whatever happens to a terminal in between**, it takes the screen over and gives it back. -/
theorem givenBack_run (able mute : Bool) (life : List Moment) :
    GivenBack able ((entered able mute).run life).leave.pipe.taken := by
  obtain ⟨unlimited, opened⟩ := pipe_entered able mute
  obtain ⟨unlimited', taken⟩ := taken_run_of_unlimited unlimited life
  obtain ⟨pieces, all, join⟩ := written_eq_join (entered able mute) life
  have tells : ((entered able mute).run life).tellsReleases = able := by
    rw [tellsReleases_run]
    cases able <;> rfl
  rw [taken_leave unlimited', taken, opened, join, tells, ← Pipe.toUTF8_append,
    ← Pipe.toUTF8_append]
  exact givenBack_of_pieces able all

end Terminal

end Chip8
