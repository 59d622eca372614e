import Chip8.Instruction.Encoding
import Chip8.Machine.Event

/-!
# Executing one instruction

`Machine.execute` is the effect of a single instruction on a machine whose program counter already
points past it; `Machine.executeNext` fetches and decodes the word at the program counter first.
Only a call, a return and a word that is no instruction can fail, and a failing instruction changes
nothing.
-/

namespace Chip8

/-- A machine after something happened, with the events in order. -/
structure Effect where
  /-- The machine afterwards. -/
  machine : Machine
  /-- What its surroundings saw. -/
  events : List Event

namespace Machine

/-- The machine without an event. -/
def quiet (m : Machine) : Except Fault Effect := .ok ⟨m, []⟩

/-- Skip one more instruction if a condition holds. -/
def skipIf (m : Machine) (condition : Bool) : Except Fault Effect :=
  if condition then m.advance.quiet else m.quiet

/-- Return to the innermost open call. -/
def popCall (m : Machine) : Except Fault Effect :=
  match m.stack with
  | [] => .error (.stackUnderflow m.currentAddress)
  | a :: rest => quiet { m with stack := rest, pc := a }

/-- Open a call and continue at an address. -/
def pushCall (m : Machine) (nnn : UInt16) : Except Fault Effect :=
  if m.stack.length < stackDepth then
    quiet { m with stack := m.pc :: m.stack, pc := Memory.wrap nnn }
  else .error (.stackOverflow m.currentAddress)

/-- Put the next random byte, masked, into a register. -/
def roll (m : Machine) (x : Register) (mask : UInt8) : Except Fault Effect :=
  let byte := m.dice.top
  .ok ⟨{ m with dice := m.dice.next }.setReg x (byte &&& mask), [.draw byte]⟩

/-- The sprite rows that lie at the index. -/
def sprite (m : Machine) (n : UInt8) : List UInt8 :=
  (List.range n.toNat).map fun r => m.memory.read (m.index + UInt16.ofNat r)

/-- Draw a sprite.  The flag register is cleared before the position is read. -/
def drawSprite (m : Machine) (x y : Register) (n : UInt8) : Except Fault Effect :=
  let m := m.setReg flagRegister 0
  let points := Sprite.points (m.reg x).toNat (m.reg y).toNat (m.sprite n)
  let (frame, hit) := m.frame.toggleAll points
  { m with frame := frame, stale := true }.setReg flagRegister hit.toUInt8 |>.quiet

/-- Start to wait for a key; only keys that go down from now on count. -/
def awaitKey (m : Machine) (x : Register) : Except Fault Effect :=
  .ok ⟨{ m with keypad := m.keypad.forget, mode := .waiting x }, [.notice (.awaitingKey x)]⟩

/-- Memory with the decimal digits of a byte in three cells from an address on. -/
def decimalAt (memory : Memory) (a : UInt16) (b : UInt8) : Memory :=
  ((memory.write a (b / 100)).write (a + 1) (b % 100 / 10)).write (a + 2) (b % 10)

/-- Memory with the registers up to and including `x` in the cells from the index on. -/
def registersStored (m : Machine) (x : Register) : Memory :=
  ((List.finRange 16).filter (· ≤ x)).foldl
    (fun memory k => memory.write (m.index + UInt16.ofNat k.val) (m.reg k)) m.memory

/-- The registers, those up to and including `x` filled from the cells from the index on. -/
def registersLoaded (m : Machine) (x : Register) : Vector UInt8 16 :=
  Vector.ofFn fun k =>
    if k ≤ x then m.memory.read (m.index + UInt16.ofNat k.val) else m.reg k

/-- The effect of one instruction; the program counter already points past it. -/
def execute (m : Machine) : Instruction → Except Fault Effect
  | .clearScreen => quiet { m with frame := .dark, stale := true }
  | .ret => m.popCall
  | .jump nnn => quiet { m with pc := Memory.wrap nnn }
  | .call nnn => m.pushCall nnn
  | .skipIfByte x nn => m.skipIf (m.reg x == nn)
  | .skipUnlessByte x nn => m.skipIf (m.reg x != nn)
  | .skipIfSame x y => m.skipIf (m.reg x == m.reg y)
  | .setByte x nn => (m.setReg x nn).quiet
  | .addByte x nn => (m.setReg x (m.reg x + nn)).quiet
  | .copy x y => (m.setReg x (m.reg y)).quiet
  | .or x y => (m.setReg x (m.reg x ||| m.reg y)).quiet
  | .and x y => (m.setReg x (m.reg x &&& m.reg y)).quiet
  | .xor x y => (m.setReg x (m.reg x ^^^ m.reg y)).quiet
  | .add x y =>
    (m.setFlagged x (m.reg x + m.reg y) (255 < (m.reg x).toNat + (m.reg y).toNat)).quiet
  | .subtract x y => (m.setFlagged x (m.reg x - m.reg y) (m.reg y ≤ m.reg x)).quiet
  | .shiftRight x _ => (m.setFlagged x (m.reg x >>> 1) (m.reg x &&& 1 == 1)).quiet
  | .subtractFrom x y => (m.setFlagged x (m.reg y - m.reg x) (m.reg x ≤ m.reg y)).quiet
  | .shiftLeft x _ => (m.setFlagged x (m.reg x <<< 1) (m.reg x >>> 7 == 1)).quiet
  | .skipUnlessSame x y => m.skipIf (m.reg x != m.reg y)
  | .setIndex nnn => quiet { m with index := Memory.wrap nnn }
  | .jumpOffset nnn => quiet { m with pc := Memory.wrap (nnn + (m.reg 0).toUInt16) }
  | .random x nn => m.roll x nn
  | .draw x y n => m.drawSprite x y n
  | .skipIfKey x => m.skipIf (m.keypad.isDown (m.reg x))
  | .skipUnlessKey x => m.skipIf (!m.keypad.isDown (m.reg x))
  | .readDelay x => (m.setReg x m.delay.value).quiet
  | .waitForKey x => m.awaitKey x
  | .setDelay x => quiet { m with delay := ⟨m.reg x⟩ }
  | .setSound x => quiet { m with sound := ⟨m.reg x⟩ }
  | .addIndex x => quiet { m with index := Memory.wrap (m.index + (m.reg x).toUInt16) }
  | .pointAtGlyph x =>
    quiet { m with index := Memory.wrap (Memory.fontStart + (m.reg x).toUInt16 * 5) }
  | .storeDecimal x => quiet { m with memory := decimalAt m.memory m.index (m.reg x) }
  | .storeRegisters x => quiet { m with memory := m.registersStored x }
  | .loadRegisters x => quiet { m with v := m.registersLoaded x }

/-- What the next instruction leads to. -/
structure Advance where
  /-- The machine afterwards. -/
  machine : Machine
  /-- What its surroundings saw. -/
  events : List Event
  /-- Why the instruction failed, if it did. -/
  failure : Option Fault

/-- Fetch, decode and execute the instruction at the program counter. -/
def executeNext (m : Machine) : Advance :=
  let address := m.pc
  let word := m.memory.readWord address
  let m := m.advance
  match Instruction.decode word with
  | none => ⟨m, [], some (.unknownOpcode word address)⟩
  | some op =>
    let fetched := Event.notice (.fetched address word op)
    match m.execute op with
    | .ok effect => ⟨effect.machine, fetched :: effect.events, none⟩
    | .error fault => ⟨m, [fetched], some fault⟩

end Machine

end Chip8
