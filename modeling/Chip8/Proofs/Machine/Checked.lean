import Chip8.Proofs.Keypad.Latch
import Chip8.Proofs.Machine.Runs

/-!
# Checked accesses

A machine consists of arrays: sixteen registers, 4096 cells of memory, 256 bytes of picture and
sixteen keys.  Here everything that is done to a machine is done a second time with plain numbers
for places, one element after the other.  An access to a place that an array does not have, a
product that does not fit into a word and a count below zero have no result.

That there always is a result, and which, is the matter of `Chip8.Proofs.Machine.Bounds`.
-/

namespace Chip8

namespace Checked

open Machine (Advance)

/-! ### Elements of arrays -/

/-- The register with a number. -/
def reg (m : Machine) (x : Nat) : Option UInt8 := m.v[x]?

/-- Set the register with a number. -/
def setReg (m : Machine) (x : Nat) (b : UInt8) : Option Machine :=
  if h : x < 16 then some { m with v := m.v.set x b h } else none

/-- The byte in the cell that the low twelve bits of an address name. -/
def read (memory : Memory) (a : UInt16) : Option UInt8 :=
  memory.cells[(a &&& 0xFFF).toNat]?

/-- Replace the byte in the cell that the low twelve bits of an address name. -/
def write (memory : Memory) (a : UInt16) (b : UInt8) : Option Memory :=
  if h : (a &&& 0xFFF).toNat < 4096 then some ⟨memory.cells.set (a &&& 0xFFF).toNat b h⟩ else none

/-- Copy bytes into the cells from `start` on, which must all exist. -/
def copyInto (memory : Memory) (start : Nat) (bytes : Array UInt8) : Option Memory :=
  if start + bytes.size ≤ 4096 then some (memory.overlay start bytes) else none

/-- Flip the pixel with a number, counted row by row, in the byte that holds eight of them. -/
def toggle (f : Frame) (x y : Nat) : Option (Frame × Bool) :=
  let i := y % 32 * 64 + x % 64
  let bit : UInt8 := 0x80 >>> UInt8.ofNat (i % 8)
  if h : i / 8 < 256 then
    some (⟨f.bytes.set (i / 8) (f.bytes[i / 8] ^^^ bit) h⟩, f.bytes[i / 8] &&& bit != 0)
  else none

/-- Whether the key named by the low half of a byte is down. -/
def isDown (p : Keypad) (b : UInt8) : Option Bool :=
  if h : (b &&& 0xF).toNat < 16 then some (p.down.has ⟨(b &&& 0xF).toNat, h⟩) else none

/-- Press or release the key named by the low half of a byte. -/
def press (p : Keypad) (b : UInt8) (pressed : Bool) : Option Keypad :=
  if h : (b &&& 0xF).toNat < 16 then
    let k : Key := ⟨(b &&& 0xF).toNat, h⟩
    some
      { down := p.down.put k pressed
        fresh := if pressed && !p.down.has k then p.fresh.put k true else p.fresh }
  else none

/-- Set every key to what a snapshot says. -/
def latch (p : Keypad) (snapshot : KeySet) : Option Keypad :=
  (List.finRange 16).foldlM (fun p k => press p (UInt8.ofNat k.val) (snapshot.has k)) p

/-- The product of two words, which must fit into a word. -/
def product (a b : UInt16) : Option UInt16 :=
  if a.toNat * b.toNat < 65536 then some (a * b) else none

/-- A timer after a tick; a running timer must be able to count down. -/
def tick (t : Timer) : Option Timer :=
  if t.active then
    if 1 ≤ t.value then some ⟨t.value - 1⟩ else none
  else some t

/-! ### Instructions -/

/-- The word at an address. -/
def readWord (memory : Memory) (a : UInt16) : Option UInt16 := do
  let high ← read memory a
  let low ← read memory (a + 1)
  return high.toUInt16 * 0x100 + low.toUInt16

/-- Set the flag register, and then a register to a result. -/
def setFlagged (m : Machine) (x : Nat) (result : UInt8) (flag : Bool) : Option Machine := do
  setReg (← setReg m 0xF flag.toUInt8) x result

/-- Draw one row of a sprite that lies at the index. -/
def drawRow (m : Machine) (x y : Nat) (drawn : Frame × Bool) (r : Nat) :
    Option (Frame × Bool) := do
  let row ← read m.memory (m.index + UInt16.ofNat r)
  (Sprite.columns row).foldlM (fun (frame, hit) k => do
    let (frame, lit) ← toggle frame (x + k) (y + r)
    return (frame, lit || hit)) drawn

/-- Draw a sprite row by row. -/
def drawSprite (m : Machine) (x y : Nat) (n : UInt8) : Option Machine := do
  let m ← setReg m 0xF 0
  let vx ← reg m x
  let vy ← reg m y
  let (frame, hit) ← (List.range n.toNat).foldlM (drawRow m vx.toNat vy.toNat) (m.frame, false)
  setReg { m with frame := frame, stale := true } 0xF hit.toUInt8

/-- Store the three decimal digits of a byte. -/
def storeDecimal (memory : Memory) (a : UInt16) (b : UInt8) : Option Memory := do
  let memory ← write memory a (b / 100)
  let memory ← write memory (a + 1) (b % 100 / 10)
  write memory (a + 2) (b % 10)

/-- Store the registers up to and including `x`, one after the other. -/
def storeRegisters (m : Machine) (x : Nat) : Option Memory :=
  (List.range (x + 1)).foldlM (fun memory k => do
    write memory (m.index + UInt16.ofNat k) (← reg m k)) m.memory

/-- Fill the registers up to and including `x`, one after the other. -/
def loadRegisters (m : Machine) (x : Nat) : Option Machine :=
  (List.range (x + 1)).foldlM (fun n k => do
    setReg n k (← read n.memory (n.index + UInt16.ofNat k))) m

/-- The effect of one instruction. -/
def execute (m : Machine) : Instruction → Option (Except Fault Effect)
  | .clearScreen => return Machine.quiet { m with frame := .dark, stale := true }
  | .ret => return m.popCall
  | .jump nnn => return Machine.quiet { m with pc := Memory.wrap nnn }
  | .call nnn => return m.pushCall nnn
  | .skipIfByte x nn => return m.skipIf ((← reg m x) == nn)
  | .skipUnlessByte x nn => return m.skipIf ((← reg m x) != nn)
  | .skipIfSame x y => return m.skipIf ((← reg m x) == (← reg m y))
  | .setByte x nn => return (← setReg m x nn).quiet
  | .addByte x nn => return (← setReg m x ((← reg m x) + nn)).quiet
  | .copy x y => return (← setReg m x (← reg m y)).quiet
  | .or x y => return (← setReg m x ((← reg m x) ||| (← reg m y))).quiet
  | .and x y => return (← setReg m x ((← reg m x) &&& (← reg m y))).quiet
  | .xor x y => return (← setReg m x ((← reg m x) ^^^ (← reg m y))).quiet
  | .add x y => do
    let a ← reg m x
    let b ← reg m y
    return (← setFlagged m x (a + b) (255 < a.toNat + b.toNat)).quiet
  | .subtract x y => do
    let a ← reg m x
    let b ← reg m y
    return (← setFlagged m x (a - b) (b ≤ a)).quiet
  | .shiftRight x _ => do
    let a ← reg m x
    return (← setFlagged m x (a >>> 1) (a &&& 1 == 1)).quiet
  | .subtractFrom x y => do
    let a ← reg m x
    let b ← reg m y
    return (← setFlagged m x (b - a) (a ≤ b)).quiet
  | .shiftLeft x _ => do
    let a ← reg m x
    return (← setFlagged m x (a <<< 1) (a >>> 7 == 1)).quiet
  | .skipUnlessSame x y => return m.skipIf ((← reg m x) != (← reg m y))
  | .setIndex nnn => return Machine.quiet { m with index := Memory.wrap nnn }
  | .jumpOffset nnn =>
    return Machine.quiet { m with pc := Memory.wrap (nnn + (← reg m 0).toUInt16) }
  | .random x nn => do
    let n ← setReg { m with dice := m.dice.next } x (m.dice.top &&& nn)
    return .ok ⟨n, [.draw m.dice.top]⟩
  | .draw x y n => return (← drawSprite m x y n).quiet
  | .skipIfKey x => return m.skipIf (← isDown m.keypad (← reg m x))
  | .skipUnlessKey x => return m.skipIf !(← isDown m.keypad (← reg m x))
  | .readDelay x => return (← setReg m x m.delay.value).quiet
  | .waitForKey x => return m.awaitKey x
  | .setDelay x => return Machine.quiet { m with delay := ⟨← reg m x⟩ }
  | .setSound x => return Machine.quiet { m with sound := ⟨← reg m x⟩ }
  | .addIndex x =>
    return Machine.quiet { m with index := Memory.wrap (m.index + (← reg m x).toUInt16) }
  | .pointAtGlyph x => do
    let offset ← product (← reg m x).toUInt16 5
    return Machine.quiet { m with index := Memory.wrap (Memory.fontStart + offset) }
  | .storeDecimal x =>
    return Machine.quiet { m with memory := ← storeDecimal m.memory m.index (← reg m x) }
  | .storeRegisters x => return Machine.quiet { m with memory := ← storeRegisters m x }
  | .loadRegisters x => return (← loadRegisters m x).quiet

/-- Fetch, decode and execute the instruction at the program counter. -/
def executeNext (m : Machine) : Option Advance := do
  let word ← readWord m.memory m.pc
  match Instruction.decode word with
  | none => return ⟨m.advance, [], some (.unknownOpcode word m.pc)⟩
  | some op =>
    let fetched := Event.notice (.fetched m.pc word op)
    match ← execute m.advance op with
    | .ok effect => return ⟨effect.machine, fetched :: effect.events, none⟩
    | .error fault => return ⟨m.advance, [fetched], some fault⟩

/-! ### Turns -/

/-- Look at the keyboard; a key that went down answers a wait. -/
def latchKeys (m : Machine) (keys : KeySet) : Option Effect := do
  let keypad ← latch m.keypad keys
  match m.mode with
  | .running => return ⟨{ m with keypad := keypad }, [.poll]⟩
  | .waiting x =>
    match keypad.take with
    | none => return ⟨{ m with keypad := keypad }, [.poll]⟩
    | some (key, keypad) =>
      let n ← setReg { m with keypad := keypad, mode := .running } x (UInt8.ofNat key.val)
      return ⟨n, [.poll, .notice (.keyStored key x)]⟩

/-- Execute up to `n` instructions. -/
def batched : Nat → Machine → Option Advance
  | 0, m => return ⟨m, [], none⟩
  | n + 1, m =>
    match m.mode with
    | .waiting _ => return ⟨m, [], none⟩
    | .running => do
      let next ← executeNext m
      match next.failure with
      | some _ => return next
      | none =>
        let rest ← batched n next.machine
        return ⟨rest.machine, next.events ++ rest.events, rest.failure⟩

/-- Tick both timers, if they tick at all. -/
def tickTimers (m : Machine) : Option Effect :=
  if m.ticks then do
    let delay ← tick m.delay
    let sound ← tick m.sound
    return ⟨{ m with delay := delay, sound := sound },
      if m.sound.outcome = .finished then [.notice .soundFinished] else []⟩
  else return ⟨m, []⟩

/-- The end of a frame, when its batch led to `a`. -/
def endFrame (a : Advance) : Option Turn :=
  match a.failure with
  | some _ => return Machine.endFrame a
  | none => do
    let ticked ← tickTimers a.machine
    let shown := ticked.machine.presentFrame
    return ⟨shown.machine, a.events ++ ticked.events ++ ticked.machine.tone :: shown.events,
      shown.machine.status⟩

/-- The end of the turn of a beat. -/
def endTurn : Beat → Advance → Option Turn
  | .cycle _, a => endFrame a
  | .step _, a => return Machine.endStep a

/-- Run a frame or a step. -/
def turn (m : Machine) (b : Beat) : Option Turn :=
  match m.fault with
  | some fault => return ⟨m, [], .halted fault⟩
  | none => do
    let latched ← latchKeys m b.keys
    let rest ← batched (m.quota b) latched.machine
    endTurn b ⟨rest.machine, latched.events ++ rest.events, rest.failure⟩

/-! ### Whatever is done to a machine -/

/-- Put the font into memory. -/
def installFont (m : Machine) : Option Machine :=
  return { m with memory := ← copyInto m.memory Memory.fontStart.toNat Font.glyphs }

/-- Put a program into memory; a program that does not fit changes nothing. -/
def install (m : Machine) (program : Array UInt8) : Option Machine :=
  if program.size ≤ Memory.programLimit then
    return { m with memory := ← copyInto m.memory Memory.programStart.toNat program }
  else return m

/-- The machine after something was done to it. -/
def act (m : Machine) : Act → Option Machine
  | .beat b => return (← turn m b).machine
  | .execute op => do
    match ← execute m op with
    | .ok e => return e.machine
    | .error _ => return m
  | .installFont => installFont m
  | .install program => install m program

end Checked

end Chip8
