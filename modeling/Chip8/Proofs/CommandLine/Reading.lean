import Chip8.Proofs.CommandLine.Spelling

/-!
# Reading what was spelled

Arguments that spell options are read one group after the other.  After each of them the draft holds
what was said so far, up to a value or a path that is yet to be examined, and nothing else
(`CommandLine.Hears`).

* `CommandLine.Draft.meet_long`, `CommandLine.Draft.meet_plain` : what an argument is taken for.
* `CommandLine.Hears.gives` : one more group is read.
* `CommandLine.Hears.finish` : what there is at the end.
* `CommandLine.read_of_spelledBy` : spelled options are read.
-/

namespace Chip8

namespace CommandLine

variable {o : Options} {s : Setting} {t : Topic} {ts : List Topic} {text name : String}

/-! ### What an argument is taken for -/

namespace Draft

variable {d : Draft}

theorem meet_long (h : d.namesOver = false) : d.meet s.long = d.meetSetting s none := by
  rw [meet, if_neg (Bool.eq_false_iff.1 h)]
  cases s <;> rfl

theorem meet_short (h : d.namesOver = false) (named : s.short? = some name) :
    d.meet name = d.meetSetting s none := by
  rw [meet, if_neg (Bool.eq_false_iff.1 h)]
  cases s <;> cases named <;> rfl

theorem meet_attached (h : d.namesOver = false) :
    d.meet (s.long ++ "=" ++ text) = d.meetSetting s (some text) := by
  have chars : (s.long ++ "=" ++ text).toList = s.long.toList ++ '=' :: text.toList := by
    rw [String.toList_append, String.toList_append, List.append_assoc]
    rfl
  have met : d.meet (s.long ++ "=" ++ text) =
      d.meetSetting s (some (String.ofList text.toList)) := by
    rw [meet, if_neg (Bool.eq_false_iff.1 h), chars]
    cases s <;> rfl
  rw [met, String.ofList_toList]

theorem meet_mute (h : d.namesOver = false) : d.meet "--mute" = d.meetSwitch .mute := by
  rw [meet, if_neg (Bool.eq_false_iff.1 h)]
  rfl

theorem meet_muteShort (h : d.namesOver = false) : d.meet "-m" = d.meetSwitch .mute := by
  rw [meet, if_neg (Bool.eq_false_iff.1 h)]
  exact bind_pure (d.meetSwitch .mute)

theorem meet_plain (h : d.namesOver = false) (bare : Bare text) :
    d.meet text = d.meetPlain text := by
  have undashed (cs : List Char) : text.toList ≠ '-' :: cs := fun dashed =>
    bare (by rw [dashed]; rfl)
  rw [meet, if_neg (Bool.eq_false_iff.1 h)]
  -- All that is not plain begins with a dash.
  split
  · exact absurd ‹_› (undashed _)
  · exact absurd ‹_› (undashed _)
  · exact absurd ‹_› (undashed _)
  · rfl

end Draft

/-! ### What was said so far -/

/-- The draft that holds what `o` has about some topics, and nothing else. -/
def heard (o : Options) (ts : List Topic) : Draft where
  rom := if .rom ∈ ts then some o.rom else none
  speed := if .setting .speed ∈ ts then some o.speed else none
  frameRate := if .setting .frameRate ∈ ts then some o.frameRate else none
  frames := if .setting .frames ∈ ts then o.frames else none
  verbosity := if .setting .logLevel ∈ ts then some o.verbosity else none
  logFile := if .setting .logFile ∈ ts then some o.logFile else none
  mute := decide (.mute ∈ ts) && o.mute
  pending := .nothing
  pathMet := decide (.rom ∈ ts)
  namesOver := false

/-- A draft holds what was said about some topics, once all is examined, and no option lacks its
value. -/
structure Hears (o : Options) (ts : List Topic) (d : Draft) : Prop where
  settled : d.settle = .ok (heard o ts)
  valued : ∀ s, d.pending ≠ .name s
  path : d.pathMet = decide (.rom ∈ ts)
  names : d.namesOver = false

theorem hears_heard (o : Options) (ts : List Topic) : Hears o ts (heard o ts) :=
  ⟨rfl, nofun, rfl, rfl⟩

/-- The value of an option that has none yet is taken over. -/
theorem assign_heard (fits : o.Fits) (means : Means o s text) (new : .setting s ∉ ts) :
    (heard o ts).assign s text = .ok (heard o (.setting s :: ts)) := by
  cases s with
  | speed =>
    have value : Draft.number? text = some o.speed := Number.below?_eq means fits.speed
    simp [Draft.assign, Draft.holds, heard, new, value, Draft.valid, Except.map]
  | frameRate =>
    have room : o.frameRate < UInt64.size := Nat.lt_of_le_of_lt fits.frameRate.2 (by decide)
    have value : Draft.rate? text = some o.frameRate := by
      rw [Draft.rate?, Draft.number?, Number.below?_eq means room]
      simp [fits.frameRate]
    simp [Draft.assign, Draft.holds, heard, new, value, Draft.valid, Except.map]
  | frames =>
    obtain ⟨n, limited, writes⟩ := means
    have value : Draft.number? text = some n := Number.below?_eq writes (fits.frames n limited)
    simp [Draft.assign, Draft.holds, heard, new, limited, value, Draft.valid, Except.map]
  | logLevel =>
    have value : Log.Verbosity.ofName? text = some o.verbosity := o.verbosity.ofName?_eq means
    simp [Draft.assign, Draft.holds, heard, new, value, Draft.valid, Except.map]
  | logFile =>
    have same : text = o.logFile := means
    simp [Draft.assign, Draft.holds, heard, new, same, fits.logFile, Draft.path, Except.map]

variable {d : Draft}

/-- An option whose value stands in an argument of its own. -/
theorem Hears.separate (h : Hears o ts d) (fits : o.Fits) (means : Means o s text)
    (bare : Bare text) (new : .setting s ∉ ts) (named : d.meet name = d.meetSetting s none) :
    ∃ e, [name, text].foldlM Draft.meet d = .ok e ∧ Hears o (.setting s :: ts) e := by
  have first : d.meet name = .ok { heard o ts with pending := .name s } := by
    rw [named, Draft.meetSetting, h.settled]
    rfl
  have second : Draft.meet { heard o ts with pending := .name s } text =
      .ok { heard o ts with pending := .value s text } := Draft.meet_plain rfl bare
  -- The value is examined only when something else is met.
  refine ⟨{ heard o ts with pending := .value s text }, ?_, ?_, nofun, ?_, rfl⟩
  · rw [List.foldlM_cons, first]
    exact (bind_pure _).trans second
  · exact assign_heard fits means new
  · simp [heard]

/-- The switch for the bell. -/
theorem Hears.switch (h : Hears o ts d) (silent : o.mute = true) (new : .mute ∉ ts)
    (named : d.meet name = d.meetSwitch .mute) :
    ∃ e, [name].foldlM Draft.meet d = .ok e ∧ Hears o (.mute :: ts) e := by
  have on : (heard o ts).turnOn .mute = .ok (heard o (.mute :: ts)) := by
    simp [Draft.turnOn, heard, new, silent]
  refine ⟨_, ?_, hears_heard o (.mute :: ts)⟩
  rw [List.foldlM_cons, named, Draft.meetSwitch, h.settled]
  exact (bind_pure _).trans on

/-- The path of the program. -/
theorem Hears.rom (h : Hears o ts d) (fits : o.Fits) (bare : Bare o.rom) (new : .rom ∉ ts) :
    ∃ e, [o.rom].foldlM Draft.meet d = .ok e ∧ Hears o (.rom :: ts) e := by
  have plain : d.meetPlain o.rom = d.meetPath o.rom := by
    unfold Draft.meetPlain
    split
    · rename_i s pending
      exact absurd pending (h.valued s)
    · rfl
  have met : d.meetPath o.rom =
      .ok { heard o ts with pending := .path o.rom, pathMet := true } := by
    simp [Draft.meetPath, h.path, new, h.settled, Except.map]
  refine ⟨{ heard o ts with pending := .path o.rom, pathMet := true }, ?_, ?_, nofun, ?_, rfl⟩
  · rw [List.foldlM_cons, Draft.meet_plain h.names bare, plain, met]
    rfl
  · simp [Draft.settle, Draft.path, heard, fits.rom, Except.map]
  · simp

/-- **One more group of arguments is read.** -/
theorem Hears.gives {more : List String} (h : Hears o ts d) (fits : o.Fits) (rom : Bare o.rom)
    (logFile : Bare o.logFile) (gives : Gives o t more) (new : t ∉ ts) :
    ∃ e, more.foldlM Draft.meet d = .ok e ∧ Hears o (t :: ts) e := by
  cases gives with
  | rom => exact h.rom fits rom new
  | long means => exact h.separate fits means (means.bare logFile) new (Draft.meet_long h.names)
  | short named means =>
    exact h.separate fits means (means.bare logFile) new (Draft.meet_short h.names named)
  | attached means =>
    refine ⟨_, ?_, hears_heard o _⟩
    rw [List.foldlM_cons, Draft.meet_attached h.names, Draft.meetSetting, h.settled]
    exact (bind_pure _).trans (assign_heard fits means new)
  | mute silent => exact h.switch silent new (Draft.meet_mute h.names)
  | muteShort silent => exact h.switch silent new (Draft.meet_muteShort h.names)

/-- **All groups of arguments are read.** -/
theorem Spells.hears {arguments : List String} (h : Spells o ts arguments) (fits : o.Fits)
    (rom : Bare o.rom) (logFile : Bare o.logFile) :
    ∃ d, arguments.foldlM Draft.meet Draft.empty = .ok d ∧ Hears o ts d := by
  induction h with
  | nil => exact ⟨Draft.empty, rfl, hears_heard o []⟩
  | snoc _ new gives ih =>
    obtain ⟨d, read, hears⟩ := ih
    obtain ⟨e, next, hears⟩ := hears.gives fits rom logFile gives new
    refine ⟨e, ?_, hears⟩
    rw [List.foldlM_append, read]
    exact next

/-! ### The end -/

/-- What was not said is as usual. -/
theorem getD_said {α : Type} {x usual : α} (rest : t ∉ ts → x = usual) :
    (if t ∈ ts then some x else none).getD usual = x := by
  by_cases said : t ∈ ts
  · rw [if_pos said, Option.getD_some]
  · rw [if_neg said, Option.getD_none, rest said]

/-- **The options there are at the end.** -/
theorem Hears.finish (h : Hears o ts d) (rest : ∀ t ∉ ts, Usual o t) : d.finish = .ok o := by
  have rom : (heard o ts).rom = some o.rom := if_pos (by_contra (rest .rom))
  have speed : (heard o ts).speed.getD 10 = o.speed := getD_said (rest (.setting .speed))
  have frameRate : (heard o ts).frameRate.getD 60 = o.frameRate :=
    getD_said (rest (.setting .frameRate))
  have frames : (heard o ts).frames = o.frames := by
    by_cases said : .setting .frames ∈ ts
    · exact if_pos said
    · exact (if_neg said).trans (rest _ said).symm
  have verbosity : (heard o ts).verbosity.getD (.upTo .info) = o.verbosity :=
    getD_said (rest (.setting .logLevel))
  have logFile : (heard o ts).logFile.getD "plum8.log" = o.logFile :=
    getD_said (rest (.setting .logFile))
  have mute : (heard o ts).mute = o.mute := by
    by_cases said : .mute ∈ ts
    · simp [heard, said]
    · simpa [heard, said] using (rest _ said).symm
  have usual : Options.ofRom o.rom = ⟨o.rom, 10, 60, none, .upTo .info, "plum8.log", false⟩ := rfl
  rw [Draft.finish, h.settled]
  simp only [bind, Except.bind, rom, usual, speed, frameRate, frames, verbosity, logFile, mute]

/-- **Spelled options are read.** -/
theorem read_of_spelledBy {arguments : List String} (h : SpelledBy o arguments) (fits : o.Fits)
    (rom : Bare o.rom) (logFile : Bare o.logFile) : read arguments = .ok o := by
  obtain ⟨ts, spells, rest⟩ := h
  obtain ⟨d, met, hears⟩ := spells.hears fits rom logFile
  rw [read, met]
  exact hears.finish rest

end CommandLine

end Chip8
