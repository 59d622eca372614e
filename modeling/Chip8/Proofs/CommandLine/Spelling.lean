import Mathlib.Data.List.Nodup
import Chip8.CommandLine
import Chip8.Proofs.Text.Number

/-!
# How options are spelled

The same options can be spelled in many ways: the path of the program and the options stand in any
order, most options have two names, a value stands in an argument of its own or after an equals
sign, numbers and level names may be written differently, and what is as usual may be left out.

* `CommandLine.Spells` : the arguments that say something about some topics.
* `CommandLine.SpelledBy` : the arguments that say all there is to say.
* `CommandLine.exists_spelledBy` : all options can be spelled.
-/

namespace Chip8

namespace Log.Verbosity

variable (v : Verbosity)

/-- Names are in capitals. -/
theorem upper_name : v.name.toList.map Char.toUpper = v.name.toList := by
  rcases v with _ | level
  · decide
  · cases level <;> decide

theorem head?_name : v.name.toList.head? ≠ some '-' := by
  rcases v with _ | level
  · decide
  · cases level <;> decide

/-- A name is found in letters of either case. -/
theorem ofName?_eq {text : String} (h : text.toList.map Char.toUpper = v.name.toList) :
    ofName? text = some v := by
  have same : text.toUpper = v.name := by
    rw [← String.toList_inj, String.toUpper, String.toList_map, h]
  rw [ofName?, same]
  rcases v with _ | level
  · decide
  · cases level <;> decide

end Log.Verbosity

/-- Options that stay within their limits. -/
structure Options.Fits (o : Options) : Prop where
  frameRate : 1 ≤ o.frameRate ∧ o.frameRate ≤ 1000
  speed : o.speed < UInt64.size
  frames : ∀ n, o.frames = some n → n < UInt64.size
  rom : o.rom ≠ ""
  logFile : o.logFile ≠ ""

namespace CommandLine

/-- An argument cannot be taken for the name of an option or a switch. -/
def Bare (argument : String) : Prop := argument.toList.head? ≠ some '-'

instance (argument : String) : Decidable (Bare argument) :=
  inferInstanceAs (Decidable (_ ≠ _))

/-- What an argument is about. -/
inductive Topic where
  /-- The program to run. -/
  | rom
  /-- The value of an option. -/
  | setting (s : Setting)
  /-- Whether the bell stays silent. -/
  | mute
  deriving DecidableEq, Repr

/-- The long name of an option as it stands in an argument. -/
def Setting.long : Setting → String
  | speed => "--speed"
  | frameRate => "--frame-rate"
  | frames => "--frames"
  | logLevel => "--log-level"
  | logFile => "--log-file"

/-- The short name of an option as it stands in an argument, if the option has one. -/
def Setting.short? : Setting → Option String
  | speed => some "-s"
  | frameRate => some "-f"
  | logLevel => some "-l"
  | frames | logFile => none

/-- A text is a value by which an option becomes what it is in `o`: a number in decimal, a level
name in letters of either case, or a path as it is. -/
def Means (o : Options) : Setting → String → Prop
  | .speed, text => Number.Writes o.speed text.toList
  | .frameRate, text => Number.Writes o.frameRate text.toList
  | .frames, text => ∃ n, o.frames = some n ∧ Number.Writes n text.toList
  | .logLevel, text => text.toList.map Char.toUpper = o.verbosity.name.toList
  | .logFile, text => text = o.logFile

/-- What `o` has about a topic is what there is when nothing is said about it.  The program has to
be named. -/
def Usual (o : Options) : Topic → Prop
  | .rom => False
  | .setting .speed => o.speed = 10
  | .setting .frameRate => o.frameRate = 60
  | .setting .frames => o.frames = none
  | .setting .logLevel => o.verbosity = .upTo .info
  | .setting .logFile => o.logFile = "plum8.log"
  | .mute => o.mute = false

/-- Arguments in a row that say together what `o` has about a topic. -/
inductive Gives (o : Options) : Topic → List String → Prop where
  /-- The path of the program. -/
  | rom : Gives o .rom [o.rom]
  /-- The long name of an option and its value. -/
  | long {s : Setting} {text : String} (means : Means o s text) :
      Gives o (.setting s) [s.long, text]
  /-- The long name of an option and its value after an equals sign. -/
  | attached {s : Setting} {text : String} (means : Means o s text) :
      Gives o (.setting s) [s.long ++ "=" ++ text]
  /-- The short name of an option and its value. -/
  | short {s : Setting} {name text : String} (named : s.short? = some name)
      (means : Means o s text) : Gives o (.setting s) [name, text]
  /-- The long name of the switch for the bell. -/
  | mute (silent : o.mute = true) : Gives o .mute ["--mute"]
  /-- The short name of the switch for the bell. -/
  | muteShort (silent : o.mute = true) : Gives o .mute ["-m"]

/-- Arguments that say what `o` has about some topics, the last one first, each of them once. -/
inductive Spells (o : Options) : List Topic → List String → Prop where
  /-- Nothing is said. -/
  | nil : Spells o [] []
  /-- Something more is said. -/
  | snoc {t : Topic} {ts : List Topic} {arguments more : List String}
      (before : Spells o ts arguments) (new : t ∉ ts) (gives : Gives o t more) :
      Spells o (t :: ts) (arguments ++ more)

/-- Arguments that say all about `o` that is not as usual, and perhaps also what is. -/
def SpelledBy (o : Options) (arguments : List String) : Prop :=
  ∃ ts, Spells o ts arguments ∧ ∀ t ∉ ts, Usual o t

variable {o : Options} {t : Topic} {ts : List Topic} {arguments : List String}

/-! ### Values -/

/-- No value can be taken for a name, unless it is a path. -/
theorem Means.bare {s : Setting} {text : String} (h : Means o s text) (logFile : Bare o.logFile) :
    Bare text := by
  cases s with
  | speed | frameRate => exact Number.Writes.head?_ne h
  | frames =>
    obtain ⟨n, -, writes⟩ := h
    exact writes.head?_ne
  | logLevel =>
    intro dash
    have upper : o.verbosity.name.toList.head? = some '-' := by
      have means : text.toList.map Char.toUpper = o.verbosity.name.toList := h
      rw [← means, List.head?_map, dash]
      rfl
    exact o.verbosity.head?_name upper
  | logFile =>
    have same : text = o.logFile := h
    rwa [same]

/-! ### Every option can be spelled -/

/-- Every topic. -/
def Topic.all : List Topic :=
  [.rom, .setting .speed, .setting .frameRate, .setting .frames, .setting .logLevel,
    .setting .logFile, .mute]

theorem Topic.mem_all (t : Topic) : t ∈ Topic.all := by
  rcases t with _ | s | _
  · decide
  · cases s <;> decide
  · decide

/-- What is not as usual can be said. -/
theorem exists_gives (other : ¬ Usual o t) : ∃ more, Gives o t more := by
  cases t with
  | rom => exact ⟨_, .rom⟩
  | mute => exact ⟨_, .mute (Bool.ne_false_iff.1 other)⟩
  | setting s =>
    suffices h : ∃ text, Means o s text by
      obtain ⟨text, means⟩ := h
      exact ⟨_, .long means⟩
    cases s with
    | speed => exact ⟨_, Number.Writes.plain (Number.decimal_toString o.speed)⟩
    | frameRate => exact ⟨_, Number.Writes.plain (Number.decimal_toString o.frameRate)⟩
    | frames =>
      obtain ⟨n, some⟩ := Option.ne_none_iff_exists'.1 other
      exact ⟨_, n, some, .plain (Number.decimal_toString n)⟩
    | logLevel => exact ⟨_, o.verbosity.upper_name⟩
    | logFile => exact ⟨_, rfl⟩

theorem exists_spells (distinct : ts.Nodup) (others : ∀ t ∈ ts, ¬ Usual o t) :
    ∃ arguments, Spells o ts arguments := by
  induction ts with
  | nil => exact ⟨[], .nil⟩
  | cons t ts ih =>
    rw [List.nodup_cons] at distinct
    rw [List.forall_mem_cons] at others
    obtain ⟨arguments, before⟩ := ih distinct.2 others.2
    obtain ⟨more, gives⟩ := exists_gives others.1
    exact ⟨_, .snoc before distinct.1 gives⟩

/-- **All options can be spelled**, namely by what is not as usual about them. -/
theorem exists_spelledBy (o : Options) : ∃ arguments, SpelledBy o arguments := by
  classical
  have distinct : (Topic.all.filter fun t => ¬ Usual o t).Nodup :=
    List.Nodup.filter _ (by decide)
  have others : ∀ t ∈ Topic.all.filter fun t => ¬ Usual o t, ¬ Usual o t := fun t mem =>
    of_decide_eq_true (List.mem_filter.1 mem).2
  obtain ⟨arguments, spells⟩ := exists_spells distinct others
  refine ⟨arguments, _, spells, fun t absent => ?_⟩
  by_contra other
  exact absent (List.mem_filter.2 ⟨t.mem_all, decide_eq_true other⟩)

end CommandLine

end Chip8
