import Chip8.Buffer
import Chip8.Instruction
import Chip8.Keypad
import Chip8.Memory
import Chip8.Screen.Fraction
/-!
# The machine

Everything that a running program can change: memory, screen, keypad, the byte registers, the
index, the program counter, the call stack, the two timers and the register that a pending wait
for a key will fill. The operations here are those that a host may use between instructions; they
check their arguments and fail without a change, except that a sprite keeps the pixels it had
already turned over.
-/

namespace Chip8

/-- How many return addresses the call stack holds. -/
def Machine.stackLimit : Nat := 16

/-- The state of the machine. The call stack has its top first. The program counter is any
place, since a host may set it to anything. -/
structure Machine where
  memory : Memory
  screen : Screen
  keypad : Keypad
  registers : Vector UInt8 16
  index : UInt16
  pc : Place
  stack : List UInt16
  delay : UInt8
  sound : UInt8
  keyWait : Option Register
deriving DecidableEq

/-- The values of registers and timers at one moment, the call stack bottom first. -/
structure Snapshot where
  registers : List Number
  index : Number
  pc : Number
  depth : Number
  stack : List Number
  delay : Number
  sound : Number

namespace Machine

/-- A machine about to run the program in a memory. -/
def start (memory : Memory) : Machine where
  memory := memory
  screen := .blank
  keypad := .idle
  registers := Vector.replicate 16 0
  index := 0
  pc := .address Memory.programStart
  stack := []
  delay := 0
  sound := 0
  keyWait := none

/-- The value of a register. -/
def get (m : Machine) (x : Register) : UInt8 := m.registers.get x

/-- The machine with another value of a register. -/
def set (m : Machine) (x : Register) (value : UInt8) : Machine :=
  { m with registers := m.registers.set x value }

/-- The register of an index, which has to be one of the first sixteen natural numbers. -/
def register (index : Number) : Except InputError Register :=
  match Digit.ofNumber? index with
  | some x => .ok x
  | none => .error (.noRegister index)

/-- The value of the register of an index. -/
def getRegister (m : Machine) (index : Number) : Except InputError UInt8 := do
  return m.get (← register index)

/-- Gives the register of an index the low eight bits of a value. -/
def setRegister (m : Machine) (index : Number) (value : Int) : Except InputError Machine := do
  return m.set (← register index) (UInt8.ofInt value)

/-- Gives the index the low sixteen bits of a value. -/
def setIndex (m : Machine) (value : Int) : Machine := { m with index := UInt16.ofInt value }

/-- Puts the low sixteen bits of an address on the call stack. -/
def push (m : Machine) (address : Int) : Except MachineFault Machine :=
  if m.stack.length < stackLimit then .ok { m with stack := UInt16.ofInt address :: m.stack }
  else .error .stackOverflow

/-- Takes the address on top of the call stack. -/
def pop (m : Machine) : Except MachineFault (UInt16 × Machine) :=
  match m.stack with
  | [] => .error .stackUnderflow
  | top :: rest => .ok (top, { m with stack := rest })

/-- Gives the delay timer the low eight bits of a value. -/
def setDelay (m : Machine) (value : Int) : Machine := { m with delay := UInt8.ofInt value }

/-- Gives the sound timer the low eight bits of a value. -/
def setSound (m : Machine) (value : Int) : Machine := { m with sound := UInt8.ofInt value }

/-- One tick of a timer: one less, down to zero. -/
def decay (timer : UInt8) : UInt8 := if timer = 0 then 0 else timer - 1

/-- A tick of both timers. -/
def tick (m : Machine) : Machine := { m with delay := decay m.delay, sound := decay m.sound }

/-- The bytes from an address on, or the fault at the first that cannot be read. -/
def readBytes (m : Machine) (address : Int) : Nat → Except MachineFault (List UInt8)
  | 0 => .ok []
  | n + 1 => do
    let first ← m.memory.read address
    let rest ← m.readBytes (address + 1) n
    return first :: rest

/-- Stores bytes from an address on, up to the first that cannot be written. -/
def writeBytes (m : Machine) (address : Int) (bytes : List UInt8) :
    Machine × Option MachineFault :=
  match m.memory.putAll address bytes with
  | (memory, fault) => ({ m with memory := memory }, fault)

/-- Draws what is at the index. All of the bytes are read before anything is drawn. -/
def drawBytes (m : Machine) (count : Nat)
    (draw : Screen → List UInt8 → Screen × Except InputError Bool) :
    Machine × Except Failure Bool :=
  match m.readBytes m.index.toNat count with
  | .error fault => (m, .error (.machine fault))
  | .ok bytes =>
    match draw m.screen bytes with
    | (screen, .ok hit) => ({ m with screen := screen }, .ok hit)
    | (screen, .error e) => ({ m with screen := screen }, .error (.range e))

/-- Draws the sprite of some rows at `I`, and reports whether a pixel has been switched off. -/
def drawSprite (m : Machine) (x y : Int) (rows : Nat) : Machine × Except Failure Bool :=
  m.drawBytes rows fun screen sprite => screen.draw x y sprite

/-- Draws the sprite at the index where a host wants it and with as many rows, if there is memory
for them. A row of which there is only a part is read but not drawn. -/
def drawSpriteAt (m : Machine) (memory : Nat) (x y rows : Number) : Machine × Except Failure Bool :=
  match Buffer.length 1 rows with
  | .error e => (m, .error (.range e))
  | .ok kept =>
    match Buffer.claim memory kept with
    | .error e => (m, .error (.range e))
    | .ok () =>
      m.drawBytes rows.roundedUp.truncated.toNat fun screen bytes =>
        screen.drawAt x y (bytes.take kept)

/-- Starts the wait for a key that a register shall receive. -/
def beginKeyWait (m : Machine) (x : Register) : Machine :=
  { m with keyWait := some x, keypad := m.keypad.arm }

/-- Takes the key that a pending wait has caught, and ends that wait. -/
def takeKey (m : Machine) : Option Key × Machine :=
  match m.keyWait with
  | none => (none, m)
  | some _ =>
    match m.keypad.take with
    | (some key, keypad) => (some key, { m with keypad := keypad, keyWait := none })
    | (none, _) => (none, m)

/-- The word at a place, if the place is an address. -/
def wordAt (m : Machine) (place : Place) : Except MachineFault UInt16 :=
  Memory.atPlace place m.memory.word

/-- Passes over the instruction at the program counter. -/
def skip (m : Machine) : Machine := { m with pc := m.pc.next }

/-- What a host can see of the machine. -/
def snapshot (m : Machine) : Snapshot where
  registers := m.registers.toList.map fun v => .finite v.toNat
  index := .finite m.index.toNat
  pc := m.pc.number
  depth := .finite m.stack.length
  stack := m.stack.reverse.map fun a => .finite a.toNat
  delay := .finite m.delay.toNat
  sound := .finite m.sound.toNat

end Machine

end Chip8
