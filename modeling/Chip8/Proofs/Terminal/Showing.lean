import Mathlib.Data.List.Induction
import Chip8.Proofs.Frame.Toggling
import Chip8.Proofs.Past
import Chip8.Proofs.Terminal.Life
import Chip8.Proofs.Terminal.Screen

/-!
# The screen shows the picture

What a terminal sends to show a picture tells the picture, and lays it over whatever a screen shows
(`Terminal.screen_shows_picture`).

* `Picture.pixel_recover` : each pixel of a picture is read off what was sent.
* `Terminal.replay_written` : a screen that receives what a terminal sends in the course of its life
  shows the last picture.
-/

namespace Chip8

/-! ### Recovering a picture -/

namespace Picture

/-- Whether the upper and whether the lower half of a character is filled. -/
def halves (c : Char) : Bool × Bool := (c = '█' || c = '▀', c = '█' || c = '▄')

theorem halves_glyph (upper lower : Bool) : halves (glyph upper lower) = (upper, lower) := by
  revert upper lower
  decide

/-- A screen with nothing on it. -/
def blank : Screen 65 16 := ⟨fun _ _ => ' ', 0, 0, .plain⟩

/-- The pixel at a point of the picture that bytes show. -/
def recover (bytes : ByteArray) (x : Fin 64) (y : Fin 32) : Bool :=
  let shown := blank.replayBytes (fun _ s => s) bytes
  let (upper, lower) := halves (shown.cells ⟨y / 2, by omega⟩ x.castSucc)
  if y.val % 2 = 0 then upper else lower

/-- **Each pixel is recovered.** -/
theorem pixel_recover (f : Frame) (x : Fin 64) (y : Fin 32) :
    recover (text f).toUTF8 x y = f.pixel x y := by
  obtain ⟨-, shown⟩ := Screen.replay_text (fun _ s => s) (s := blank) rfl (by decide) le_rfl f
  have inside : y.val / 2 < 16 ∧ (x.castSucc : Fin 65).val < 64 := ⟨by omega, x.isLt⟩
  rw [recover, Screen.replayBytes_toUTF8, shown, Screen.overlay, if_pos inside, halves_glyph]
  have parity := Nat.div_add_mod y.val 2
  by_cases even : y.val % 2 = 0
  · rw [even, Nat.add_zero] at parity
    simp only [if_pos even, parity, Fin.val_castSucc]
  · have odd : 2 * (y.val / 2) + 1 = y.val := by omega
    simp only [if_neg even, odd, Fin.val_castSucc]

/-- Pictures that are shown by the same bytes are the same. -/
theorem toUTF8_text_inj {f g : Frame} : (text f).toUTF8 = (text g).toUTF8 ↔ f = g := by
  refine ⟨fun same => Frame.ext_pixel fun x y => ?_, fun same => same ▸ rfl⟩
  have column : x % 64 % 64 = x % 64 := Nat.mod_mod x 64
  have row : y % 32 % 32 = y % 32 := Nat.mod_mod y 32
  rw [← Frame.pixel_congr f column row, ← Frame.pixel_congr g column row]
  have here := pixel_recover f (Fin.ofNat 64 x) (Fin.ofNat 32 y)
  rw [same, pixel_recover] at here
  exact here.symm

end Picture

namespace Terminal

/-! ### The life of a screen -/

/-- The picture that was shown last. -/
def lastShown? (life : List Moment) : Option Frame := (life.filterMap Moment.shows?).getLast?

variable {columns lines : Nat} (beyond : Char → Screen columns lines → Screen columns lines)
  {s : Screen columns lines}

/-- What a moment shows on a screen. -/
theorem replay_output (t : Terminal) (x : Moment) (plain : s.mode = .plain) (wide : 64 < columns)
    (high : 16 ≤ lines) :
    (s.replay beyond ((t.output x).getD "").toList).mode = .plain ∧
      (s.replay beyond ((t.output x).getD "").toList).cells = Screen.showing x.shows? s.cells := by
  obtain ⟨f, shows, sent⟩ | ⟨shows, none | ring⟩ := t.output_cases x
  · rw [shows, sent, Option.getD_some]
    exact Screen.replay_text beyond plain wide high f
  · rw [shows, none, Option.getD_none]
    exact ⟨plain, rfl⟩
  · have rings : s.next beyond '\x07' = s := by simp [Screen.next, plain]
    have unchanged : s.replay beyond bell.toList = s := rings
    rw [shows, ring, Option.getD_some, unchanged]
    exact ⟨plain, rfl⟩

/-- **A screen that receives what is sent in the course of a life shows the last picture.** -/
theorem replay_written (t : Terminal) (plain : s.mode = .plain) (wide : 64 < columns)
    (high : 16 ≤ lines) (life : List Moment) :
    (s.replay beyond (t.written life).toList).mode = .plain ∧
      (s.replay beyond (t.written life).toList).cells =
        Screen.showing (lastShown? life) s.cells := by
  induction life using List.reverseRecOn with
  | nil => exact ⟨plain, rfl⟩
  | append_singleton life x ih =>
    obtain ⟨mode, cells⟩ := ih
    obtain ⟨mode', cells'⟩ := replay_output beyond (t.run life) x mode wide high
    rw [written_concat, String.toList_append, Screen.replay_append]
    refine ⟨mode', cells'.trans ?_⟩
    rw [lastShown?, Past.getLast?_filterMap_concat, Screen.showing_or, cells]
    rfl

/-! ### The law -/

theorem text_eq (f : Frame) :
    Picture.text f =
      String.join ((List.range' 1 16).map fun k =>
        "\x1b[" ++ toString k ++ ";1H" ++
          String.ofList ((List.range 64).map fun x =>
            Picture.glyph (f.pixel x (2 * k - 2)) (f.pixel x (2 * k - 1)))) := by
  rw [List.range'_eq_map_range, List.map_map]
  refine congrArg String.join (List.map_congr_left fun k _ => ?_)
  have upper : 2 * (k + 1) - 2 = 2 * k := by omega
  have lower : 2 * (k + 1) - 1 = 2 * k + 1 := by omega
  simp only [Picture.moveTo, Picture.line, Frame.width, Function.comp_apply, upper, lower,
    Nat.add_comm 1 k]

/-- Showing a picture succeeds if there is room for its bytes and the pipe flushes; all of them are
taken then. -/
theorem display_eq_nil_iff {t : Terminal} {f : Frame} :
    (t.display f).2 = [] ↔
      t.pipe.stuck = false ∧
        ∀ room, t.pipe.room = some room → (Picture.text f).toUTF8.size ≤ room := by
  rw [display, send_eq, List.map_eq_nil_iff, Option.toList_eq_nil_iff, ← not_iff_not, ← ne_eq,
    Pipe.failure_send_iff]
  simp only [not_and_or, not_forall, Bool.not_eq_false, Nat.not_le, exists_prop]

theorem taken_display {t : Terminal} {f : Frame}
    (room : ∀ room, t.pipe.room = some room → (Picture.text f).toUTF8.size ≤ room) :
    (t.display f).1.pipe.taken = t.pipe.taken ++ (Picture.text f).toUTF8 := by
  rw [display, send_eq]
  have sent := t.pipe.taken_send (Picture.text f)
  cases limited : t.pipe.room with
  | none => exact (sent.of_unlimited limited).2
  | some n => rw [sent.taken, limited, Option.getD_some, Pipe.extract_of_le (room n limited)]

/-- **The screen shows the picture.**

* The text of a picture moves the cursor to the start of each of 16 lines in turn and writes 64
  characters there, the pixels of two rows in their halves.
* Showing a picture succeeds if there is room for its text and the pipe flushes, and all of the text
  was sent then.
* Each pixel is recovered from the bytes of the text, so that two pictures have the same bytes if
  they are the same.
* Whatever a screen shows and wherever its cursor stands, and whatever it does about what the
  terminal never sends: if it has more than 64 columns, and 16 lines at least, it shows the last
  picture that the terminal was to show in these columns and lines once it has received all that the
  terminal sent, and elsewhere what it showed before. -/
theorem screen_shows_picture :
    (∀ f, Picture.text f =
      String.join ((List.range' 1 16).map fun k =>
        "\x1b[" ++ toString k ++ ";1H" ++
          String.ofList ((List.range 64).map fun x =>
            Picture.glyph (f.pixel x (2 * k - 2)) (f.pixel x (2 * k - 1))))) ∧
    (∀ t : Terminal, ∀ f,
      ((t.display f).2 = [] ↔
        t.pipe.stuck = false ∧
          ∀ room, t.pipe.room = some room → (Picture.text f).toUTF8.size ≤ room) ∧
      ((t.display f).2 = [] →
        (t.display f).1.pipe.taken = t.pipe.taken ++ (Picture.text f).toUTF8)) ∧
    (∀ f x y, Picture.recover (Picture.text f).toUTF8 x y = f.pixel x y) ∧
    (∀ f g, (Picture.text f).toUTF8 = (Picture.text g).toUTF8 ↔ f = g) ∧
    ∀ {columns lines : Nat} (beyond : Char → Screen columns lines → Screen columns lines)
      (screen : Screen columns lines) (t : Terminal) (life : List Moment),
      64 < columns → 16 ≤ lines → screen.mode = .plain → t.pipe.room = none →
      ∃ bytes, (t.run life).pipe.taken = t.pipe.taken ++ bytes ∧
        (∀ f, lastShown? life = some f → ∀ i j,
          (screen.replayBytes beyond bytes).cells i j =
            if i.val < 16 ∧ j.val < 64 then
              Picture.glyph (f.pixel j (2 * i)) (f.pixel j (2 * i + 1))
            else screen.cells i j) ∧
        (lastShown? life = none → (screen.replayBytes beyond bytes).cells = screen.cells) := by
  refine ⟨text_eq, fun t f => ⟨display_eq_nil_iff, fun sent => ?_⟩, Picture.pixel_recover,
    fun f g => Picture.toUTF8_text_inj, ?_⟩
  · exact taken_display (display_eq_nil_iff.1 sent).2
  · intro columns lines beyond screen t life wide high plain unlimited
    obtain ⟨-, shown⟩ := replay_written beyond t plain wide high life
    refine ⟨(t.written life).toUTF8, ?_, fun f last i j => ?_, fun none => ?_⟩
    · exact (taken_run_of_unlimited unlimited life).2
    · rw [Screen.replayBytes_toUTF8, shown, last]
      rfl
    · rw [Screen.replayBytes_toUTF8, shown, none]
      rfl

/-- On a screen that is larger than the picture, the pixel of an earlier picture is gone, that of
the last one stands in the lower half of its cell, and the cells around the picture keep what they
showed; the bell alone changes nothing. -/
theorem screen_shows_picture_of_calls :
    let screen : Screen 66 17 := ⟨fun _ _ => '?', 16, 65, .plain⟩
    let t := «over» .healthy false
    let last := Frame.dark.flip 3 5
    let ring := Moment.call (.play 0 0)
    let life := [.call (.present (Frame.dark.flip 0 0)), ring, .call (.present last),
      .call .silence, ring]
    (screen.mode = .plain ∧ t.pipe.room = none ∧ t.pipe.stuck = false ∧
        lastShown? life = some last ∧ lastShown? [ring] = none) ∧
      ((t.display last).2 = [] ∧
        (t.display last).1.pipe.taken = .empty ++ (Picture.text last).toUTF8) ∧
      (∃ bytes, (t.run life).pipe.taken = .empty ++ bytes ∧
        let shown := (screen.replayBytes (fun _ s => s) bytes).cells
        shown 0 0 = ' ' ∧ shown 2 3 = '▄' ∧ shown 16 0 = '?' ∧ shown 0 64 = '?') ∧
      ∃ bytes, (t.run [ring]).pipe.taken = .empty ++ bytes ∧
        (screen.replayBytes (fun _ s => s) bytes).cells = screen.cells := by
  intro screen t last ring life
  obtain ⟨-, displays, -, -, shows⟩ := screen_shows_picture
  obtain ⟨succeeds, sends⟩ := displays t last
  have success : (t.display last).2 = [] := succeeds.2 ⟨rfl, nofun⟩
  obtain ⟨bytes, taken, picture, -⟩ :=
    shows (fun _ s => s) screen t life (by decide) (by decide) rfl rfl
  obtain ⟨bell, rung, -, nothing⟩ :=
    shows (fun _ s => s) screen t [ring] (by decide) (by decide) rfl rfl
  have cells := picture last rfl
  refine ⟨⟨rfl, rfl, rfl, rfl, rfl⟩, ⟨success, sends success⟩, ⟨bytes, taken, ?_⟩,
    bell, rung, nothing rfl⟩
  simp only [cells]
  decide +kernel

end Terminal

end Chip8
