import Mathlib
import Chip8.Proofs.CommandLine.Reading

/-!
# Accepted options

Whatever arguments are accepted, numbers stay below 64 bits, paths are not empty, and there is at
least one frame in a second and at most a thousand (`CommandLine.fits_of_read`).  This is what the
time between two frames relies on.

* `CommandLine.Draft.InRange` : what is kept from argument to argument.
* `Options.framePeriod_bounds` : the time between two frames.
* `CommandLine.spellings_are_read` : spelled options are read, and accepted options fit.
-/

namespace Chip8

/-! ### The time between two frames -/

/-- The time between two frames is a second divided by their number, rounded down. -/
theorem Options.framePeriod_bounds {o : Options} (h : 1 ≤ o.frameRate ∧ o.frameRate ≤ 1000) :
    (1000000 ≤ o.framePeriod ∧ o.framePeriod ≤ 1000000000) ∧
      o.framePeriod * o.frameRate ≤ 1000000000 ∧
      1000000000 < (o.framePeriod + 1) * o.frameRate := by
  have rate : max o.frameRate 1 = o.frameRate := Nat.max_eq_left h.1
  have fast : 1000000000 / 1000 ≤ 1000000000 / o.frameRate := Nat.div_le_div_left h.2 h.1
  rw [framePeriod, rate]
  refine ⟨⟨fast, Nat.div_le_self _ _⟩, Nat.div_mul_le_self _ _, ?_⟩
  exact Nat.lt_mul_of_div_lt (Nat.lt_succ_self _) h.1

namespace CommandLine

/-! ### What is accepted on the way -/

namespace Draft

/-- What was accepted so far stays within its limits. -/
structure InRange (d : Draft) : Prop where
  speed : ∀ n ∈ d.speed, n < UInt64.size
  frameRate : ∀ n ∈ d.frameRate, 1 ≤ n ∧ n ≤ 1000
  frames : ∀ n ∈ d.frames, n < UInt64.size
  rom : ∀ p ∈ d.rom, p ≠ ""
  logFile : ∀ p ∈ d.logFile, p ≠ ""

variable {α : Type} {d : Draft} {text : String}

theorem satisfies_error {P : α → Prop} (r : Refusal) :
    SatisfiesM P (.error r : Except Refusal α) :=
  SatisfiesM_Except_eq.2 nofun

theorem satisfies_valid {P : α → Prop} {value : Option α} (h : ∀ a ∈ value, P a) :
    SatisfiesM P (valid value) := by
  cases value with
  | none => exact satisfies_error _
  | some a => exact .pure (h a rfl)

theorem satisfies_path (text : String) : SatisfiesM (· ≠ "") (path text) := by
  unfold path
  split
  · exact satisfies_error _
  · rename_i some
    exact .pure fun none => some (String.isEmpty_iff.2 none)

theorem number?_lt : ∀ n ∈ number? text, n < UInt64.size := by
  intro n read
  exact of_decide_eq_true (Option.mem_filter_iff.1 read).2

theorem rate?_bounds : ∀ n ∈ rate? text, 1 ≤ n ∧ n ≤ 1000 := by
  intro n read
  exact of_decide_eq_true (Option.mem_filter_iff.1 read).2

/-- The notes of what is to be examined have no limits. -/
theorem InRange.note (h : d.InRange) (pending : Pending) (pathMet namesOver : Bool) :
    { d with pending := pending, pathMet := pathMet, namesOver := namesOver }.InRange :=
  ⟨h.speed, h.frameRate, h.frames, h.rom, h.logFile⟩

theorem InRange.assign (h : d.InRange) (s : Setting) (text : String) :
    SatisfiesM InRange (d.assign s text) := by
  unfold Draft.assign
  split
  · exact satisfies_error _
  · cases s with
    | speed =>
      exact (satisfies_valid number?_lt).map fun bound => { h with speed := by simpa using bound }
    | frameRate =>
      exact (satisfies_valid rate?_bounds).map fun bound =>
        { h with frameRate := by simpa using bound }
    | frames =>
      exact (satisfies_valid number?_lt).map fun bound => { h with frames := by simpa using bound }
    | logLevel =>
      exact (satisfies_valid fun _ _ => trivial).map fun _ : True => { h with }
    | logFile =>
      exact (satisfies_path text).map fun some => { h with logFile := by simpa using some }

theorem InRange.turnOn (h : d.InRange) (s : Switch) : SatisfiesM InRange (d.turnOn s) := by
  cases s with
  | mute =>
    rw [Draft.turnOn]
    split
    · exact satisfies_error _
    · exact .pure { h with }
  | help | version => exact satisfies_error _

theorem InRange.settle (h : d.InRange) : SatisfiesM InRange d.settle := by
  have rest := h.note .nothing d.pathMet d.namesOver
  unfold Draft.settle
  split
  · exact .pure rest
  · exact satisfies_error _
  · exact rest.assign _ _
  · exact (satisfies_path _).map fun some => { rest with rom := by simpa using some }

theorem InRange.meetSetting (h : d.InRange) (s : Setting) (attached : Option String) :
    SatisfiesM InRange (d.meetSetting s attached) := by
  refine h.settle.bind fun e settled => ?_
  cases attached with
  | none => exact .pure (settled.note (.name s) e.pathMet e.namesOver)
  | some text => exact settled.assign s text

theorem InRange.meetSwitch (h : d.InRange) (s : Switch) : SatisfiesM InRange (d.meetSwitch s) :=
  h.settle.bind fun _ settled => settled.turnOn s

theorem InRange.meetPath (h : d.InRange) (text : String) :
    SatisfiesM InRange (d.meetPath text) := by
  unfold Draft.meetPath
  split
  · exact satisfies_error _
  · exact h.settle.map fun settled => settled.note (.path text) true _

theorem InRange.meetLong (h : d.InRange) (name : String) (attached : Option String) :
    SatisfiesM InRange (d.meetLong name attached) := by
  unfold Draft.meetLong
  split
  · exact satisfies_error _
  · exact h.meetSetting _ _
  · split
    · exact satisfies_error _
    · exact h.meetSwitch _

theorem InRange.meetShort (h : d.InRange) (cs : List Char) :
    SatisfiesM InRange (d.meetShort cs) := by
  induction cs generalizing d with
  | nil => exact .pure h
  | cons c cs ih =>
    unfold Draft.meetShort
    split
    · exact satisfies_error _
    · exact (h.meetSwitch _).bind fun _ switched => ih switched
    · exact h.meetSetting _ _

theorem InRange.meetPlain (h : d.InRange) (text : String) :
    SatisfiesM InRange (d.meetPlain text) := by
  unfold Draft.meetPlain
  split
  · exact .pure (h.note _ d.pathMet d.namesOver)
  · exact h.meetPath text

theorem InRange.meet (h : d.InRange) (argument : String) :
    SatisfiesM InRange (d.meet argument) := by
  unfold Draft.meet
  split
  · exact h.meetPath argument
  · split
    · exact .pure (h.note d.pending d.pathMet true)
    · split
      · exact h.meetLong _ _
      · exact h.meetLong _ _
    · exact h.meetShort _
    · exact h.meetPlain argument

theorem inRange_empty : empty.InRange := ⟨nofun, nofun, nofun, nofun, nofun⟩

/-- A limit that the usual value keeps to as well. -/
theorem getD_of_forall {P : α → Prop} {value : Option α} {usual : α} (h : ∀ a ∈ value, P a)
    (rest : P usual) : P (value.getD usual) := by
  cases value with
  | none => exact rest
  | some a => exact h a rfl

theorem InRange.finish (h : d.InRange) : SatisfiesM Options.Fits d.finish := by
  refine h.settle.bind fun e settled => ?_
  split
  · exact satisfies_error _
  · rename_i rom named
    exact .pure
      { frameRate := getD_of_forall settled.frameRate (by decide : 1 ≤ 60 ∧ 60 ≤ 1000)
        speed := getD_of_forall settled.speed (by decide : 10 < UInt64.size)
        frames := settled.frames
        rom := settled.rom rom named
        logFile := getD_of_forall settled.logFile (by decide : "plum8.log" ≠ "") }

end Draft

variable {o : Options} {arguments : List String}

/-- **Accepted options fit.** -/
theorem fits_of_read (h : read arguments = .ok o) : o.Fits := by
  have met : SatisfiesM Draft.InRange (arguments.foldlM Draft.meet Draft.empty) :=
    List.satisfiesM_foldlM Draft.inRange_empty fun _ inRange argument _ => inRange.meet argument
  have accepted : SatisfiesM Options.Fits (read arguments) :=
    met.bind fun _ inRange => inRange.finish
  exact SatisfiesM_Except_eq.1 accepted o h

/-! ### There and back -/

/-- **Spelled options are read, and accepted options fit.**

* All options can be spelled.
* All arguments that spell options are accepted and give just these options, in whatever order and
  form they do it, if there is at least one frame in a second and at most a thousand, numbers stay
  below 64 bits, and paths are neither empty nor begin like the name of an option.
* If arguments are accepted, then there is at least one frame in a second and at most a thousand,
  numbers stay below 64 bits, and paths are not empty.  So the time between two frames is a
  thousandth of a second at least and a second at most, and it is a second divided by the number of
  frames, rounded down.  Of the machine nothing is set but its speed. -/
theorem spellings_are_read (o : Options) :
    (∃ arguments, SpelledBy o arguments) ∧
    (o.Fits → Bare o.rom → Bare o.logFile →
      ∀ arguments, SpelledBy o arguments → read arguments = .ok o) ∧
    ∀ arguments, read arguments = .ok o →
      o.Fits ∧
      (1000000 ≤ o.framePeriod ∧ o.framePeriod ≤ 1000000000) ∧
      (o.framePeriod * o.frameRate ≤ 1000000000 ∧
        1000000000 < (o.framePeriod + 1) * o.frameRate) ∧
      o.tuning = { Tuning.standard with speed := o.speed } := by
  refine ⟨exists_spelledBy o, fun fits rom logFile arguments spelled => ?_, fun arguments h => ?_⟩
  · exact read_of_spelledBy spelled fits rom logFile
  · have fits := fits_of_read h
    obtain ⟨bounds, rounded⟩ := Options.framePeriod_bounds fits.frameRate
    exact ⟨fits, bounds, rounded, rfl⟩

/-- The largest numbers there may be, one of them with a sign and one with zeros before it, a level
in letters of both cases, and a usual log file, which is not named. -/
theorem spellings_are_read_of_largest :
    let o : Options := ⟨"games/pong.ch8", 18446744073709551615, 1000, some 18446744073709551615,
      .upTo .trace, "plum8.log", true⟩
    let arguments := ["-m", "--frame-rate=001000", "games/pong.ch8", "-s", "18446744073709551615",
      "--log-level", "tRaCe", "--frames=+18446744073709551615"]
    (o.Fits ∧ Bare o.rom ∧ Bare o.logFile ∧ SpelledBy o arguments) ∧
      read arguments = .ok o ∧
      o.framePeriod = 1000000 := by
  intro o arguments
  have fits : o.Fits :=
    { frameRate := by decide
      speed := by decide
      frames := by rintro _ ⟨⟩; decide
      rom := by decide
      logFile := by decide }
  have largest : Number.Decimal 18446744073709551615 "18446744073709551615".toList :=
    ⟨by decide, List.all_eq_true.1 rfl, rfl⟩
  have speed : Means o .speed "18446744073709551615" := .plain largest
  have frames : Means o .frames "+18446744073709551615" := ⟨_, rfl, .plus largest⟩
  have frameRate : Means o .frameRate "001000" := .plain ⟨by decide, List.all_eq_true.1 rfl, rfl⟩
  have logLevel : Means o .logLevel "tRaCe" := by show _ = _; decide
  have spelled : SpelledBy o arguments := by
    refine ⟨_, .snoc (.snoc (.snoc (.snoc (.snoc (.snoc .nil ?_ (.muteShort rfl)) ?_
      (.attached frameRate)) ?_ .rom) ?_ (.short rfl speed)) ?_ (.long logLevel)) ?_
      (.attached frames), fun t silent => ?_⟩
    iterate 6 decide
    rcases t with _ | s | _
    · exact absurd (by decide) silent
    · cases s with
      | logFile => rfl
      | _ => exact absurd (by decide) silent
    · exact absurd (by decide) silent
  obtain ⟨-, read, accepted⟩ := spellings_are_read o
  have given := read fits (by decide) (by decide) arguments spelled
  obtain ⟨-, ⟨least, -⟩, ⟨most, -⟩, -⟩ := accepted arguments given
  have thousand : o.framePeriod * 1000 ≤ 1000000000 := most
  exact ⟨⟨fits, by decide, by decide, spelled⟩, given, by omega⟩

end CommandLine

end Chip8
