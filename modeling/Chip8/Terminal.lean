import Chip8.Keypad.Layout
import Chip8.Machine.Event
import Chip8.Terminal.Input
import Chip8.Terminal.Pipe
import Chip8.Terminal.Picture

/-!
# The terminal

A terminal shows the picture, rings its bell when a tone starts, and holds the keys down that were
pressed on its keyboard.  Most terminals do not tell when a key goes up: there a press holds its key
down for a number of frames.
-/

namespace Chip8

/-- A terminal that a machine runs on. -/
structure Terminal where
  /-- Where its output goes. -/
  pipe : Pipe
  /-- The keys that are down. -/
  down : KeySet
  /-- For how many more frames each key is held down. -/
  held : Vector UInt8 16
  /-- Whether the terminal tells when a key goes up. -/
  tellsReleases : Bool
  /-- Whether a tone is on. -/
  sounding : Bool
  /-- Whether the bell stays silent. -/
  mute : Bool
  /-- Whether the user wants to quit. -/
  quitting : Bool
  /-- The first failure that was not taken yet. -/
  failure : Option IoFailure

namespace Terminal

/-- The frames for which a press holds its key down. -/
def holdFrames : UInt8 := 8

/-- The module under which a terminal logs. -/
def origin : String := "plum8_host::terminal"

/-- A terminal over a pipe. -/
def «over» (pipe : Pipe) (mute : Bool) : Terminal where
  pipe := pipe
  down := .empty
  held := Vector.replicate 16 0
  tellsReleases := false
  sounding := false
  mute := mute
  quitting := false
  failure := none

/-! ### The keyboard -/

/-- Press a key, or let it go. -/
def holdKey (t : Terminal) (k : Key) (pressed : Bool) : Terminal :=
  { t with
    down := t.down.put k pressed
    held := t.held.set k.val (if pressed then holdFrames else 0) k.isLt }

/-- Take a key event in.  Escape and Control-C ask to quit, a character with a place on the keypad
holds its key. -/
def takeKey (t : Terminal) (e : KeyEvent) : Terminal :=
  match e.code with
  | .escape => { t with quitting := true }
  | .char c =>
    if c = 'c' ∧ e.control then { t with quitting := true }
    else match Layout.keyOf c with
      | none => t
      | some k => t.holdKey k (e.action != .release)
  | .other => t

/-- Take an input in. -/
def take (t : Terminal) : Input → Terminal
  | .key e => t.takeKey e
  | .reply | .other => t

/-- The frames that are left of a hold after one more. -/
def wear (left : UInt8) : UInt8 := if left = 0 then 0 else left - 1

/-- Let a frame go by: a key whose hold runs out goes up, unless the terminal tells when keys go
up. -/
def age (t : Terminal) : Terminal :=
  if t.tellsReleases then t
  else
    { t with
      down := (List.finRange 16).foldl
        (fun s k => if t.held[k] = 1 then s.put k false else s) t.down
      held := t.held.map wear }

/-! ### Output -/

/-- The notice of a failure. -/
def failureRecord (failure : IoFailure) : Log.Record where
  level := .warn
  origin := some origin
  target := origin
  message := "terminal output failed: " ++ failure.message

/-- Send text to the terminal; of the failures the first one is kept, and each one is logged. -/
def send (t : Terminal) (text : String) : Terminal × List Log.Record :=
  match t.pipe.send text with
  | (pipe, none) => ({ t with pipe := pipe }, [])
  | (pipe, some failure) =>
    ({ t with pipe := pipe, failure := t.failure.or (some failure) }, [failureRecord failure])

/-- Show a picture. -/
def display (t : Terminal) (f : Frame) : Terminal × List Log.Record :=
  t.send (Picture.text f)

/-- The text that rings the bell. -/
def bell : String := "\x07"

/-- Start a tone or go on with it; the bell rings when it starts. -/
def play (t : Terminal) : Terminal × List Log.Record :=
  if t.sounding then (t, [])
  else
    let t := { t with sounding := true }
    if t.mute then (t, []) else t.send bell

/-- End the tone. -/
def hush (t : Terminal) : Terminal := { t with sounding := false }

/-- Take the first failure since it was taken last. -/
def takeFailure (t : Terminal) : Terminal × Option IoFailure :=
  ({ t with failure := none }, t.failure)

/-- Answer a call of a machine; only calls for the tone and the display reach the terminal. -/
def serve (t : Terminal) : Event → Terminal × List Log.Record
  | .play _ _ => t.play
  | .silence => (t.hush, [])
  | .present f => t.display f
  | .poll | .draw _ | .notice _ => (t, [])

/-! ### Taking the screen over -/

/-- A text as it arrives at a terminal that is not taken over: each line feed comes with a carriage
return. -/
def withReturns (text : String) : String :=
  String.ofList (text.toList.flatMap fun c => if c = '\n' then ['\r', '\n'] else [c])

/-- What takes the screen over: the other screen, no cursor, nothing on it. -/
def enterText : String := "\x1b[?1049h\x1b[?25l\x1b[2J"

/-- The question whether the terminal tells when keys go up. -/
def queryText : String := "\x1b[?u\x1b[c"

/-- What makes the terminal tell. -/
def pushText : String := "\x1b[>2u"

/-- What makes it stop telling. -/
def popText : String := "\x1b[<1u"

/-- What gives the screen back. -/
def leaveText : String := "\x1b[?25h\x1b[?1049l"

/-- The notice that the terminal is set up. -/
def readyRecord (t : Terminal) : Log.Record where
  level := .debug
  origin := some origin
  target := origin
  message := "terminal ready, key release events: " ++ if t.tellsReleases then "true" else "false"

/-- Take the screen over of a terminal that answers whether it can tell when keys go up. -/
def enter (t : Terminal) (able : Bool) : Terminal :=
  let pipe := (t.pipe.send (enterText ++ queryText)).1
  if able then { t with pipe := (pipe.send pushText).1, tellsReleases := true }
  else { t with pipe := pipe }

/-- Give the screen back. -/
def leave (t : Terminal) : Terminal :=
  let pipe := if t.tellsReleases then (t.pipe.send popText).1 else t.pipe
  { t with pipe := (pipe.send leaveText).1 }

end Terminal

end Chip8
