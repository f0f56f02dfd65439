import Chip8.Dialect
import Chip8.Machine
import Chip8.Random
/-!
# Executing an instruction

What one decoded instruction does to a machine whose program counter has already been moved past
it. Results are computed from the old operands and written first; the flag register is written
last, so that it wins when it is also the destination. An instruction that fails keeps what it had
stored before.
-/

namespace Chip8

/-- Why an instruction was not completed: a fault that stops the engine, or a misuse of the machine
that does not. -/
inductive Abort where
  | fault (cause : FaultCause)
  | misuse (error : InputError)
deriving DecidableEq

/-- A failed operation on the machine ends the instruction that asked for it. -/
def Abort.ofFailure : Failure → Abort
  | .machine f => .fault (.machine f)
  | .range e => .misuse e

/-- What executing an instruction leaves behind: the machine, the random source, and why it was not
completed, if so. -/
structure Outcome where
  machine : Machine
  random : RandomSource
  abort : Option Abort

namespace Instruction

/-- The flag register. -/
def flag : Register := .ofNat 15

/-- The sum of two bytes, and whether it is carried over. -/
def sumFlag (a b : UInt8) : UInt8 × Bool := (a + b, 255 < a.toNat + b.toNat)

/-- The difference of two bytes, and whether nothing had to be borrowed. -/
def differenceFlag (a b : UInt8) : UInt8 × Bool := (a - b, b ≤ a)

/-- Gives a register a result and then the flag register a bit. -/
def setWithFlag (m : Machine) (x : Register) (result : UInt8 × Bool) : Machine :=
  (m.set x result.1).set flag (if result.2 then 1 else 0)

/-- Gives a register the result of a logical operation, which in some dialects clears the flag. -/
def setLogic (d : Dialect) (m : Machine) (x : Register) (result : UInt8) : Machine :=
  if d.logicClearsFlag then (m.set x result).set flag 0 else m.set x result

/-- Where a transfer of the registers up to `x` leaves the index that it started at. -/
def movedIndex (d : Dialect) (m : Machine) (x : Register) : Machine :=
  if d.transferMovesIndex then m.setIndex ((m.index.toNat + x.val + 1) % 4096) else m

/-- The registers from zero up to `x`. -/
def registersUpTo (m : Machine) (x : Register) : List UInt8 :=
  m.registers.toList.take (x.val + 1)

/-- Loads registers from a place on, each from the next address, up to the first that cannot be
read. -/
def loadRegisters (m : Machine) (address : Int) : List Register → Machine × Option MachineFault
  | [] => (m, none)
  | r :: rest =>
    match m.memory.read address with
    | .error fault => (m, some fault)
    | .ok value => loadRegisters (m.set r value) (address + 1) rest

/-- The registers from zero up to `x`, in order. -/
def upTo (x : Register) : List Register := (List.finRange 16).take (x.val + 1)

/-- The hundreds, tens and ones of a byte. -/
def decimalDigits (value : UInt8) : List UInt8 := [value / 100, value / 10 % 10, value % 10]

/-- The key that the low four bits of a byte name. -/
def keyOf (value : UInt8) : Key := .ofNat value.toNat

/-- Executes an instruction whose address was `pc`. -/
def execute (d : Dialect) (policy : UnknownPolicy) (pc : Place) (m : Machine) (r : RandomSource) :
    Instruction → Outcome
  | clear => ⟨{ m with screen := .blank }, r, none⟩
  | ret =>
    match m.pop with
    | .ok (target, m') => ⟨{ m' with pc := .address target.toNat }, r, none⟩
    | .error fault => ⟨m, r, some (.fault (.machine fault))⟩
  | jump target => ⟨{ m with pc := .address target.val }, r, none⟩
  | call target =>
    match m.push m.pc.whole with
    | .ok m' => ⟨{ m' with pc := .address target.val }, r, none⟩
    | .error fault => ⟨m, r, some (.fault (.machine fault))⟩
  | skipEqualByte x value => ⟨if m.get x = value then m.skip else m, r, none⟩
  | skipUnequalByte x value => ⟨if m.get x ≠ value then m.skip else m, r, none⟩
  | skipEqual x y => ⟨if m.get x = m.get y then m.skip else m, r, none⟩
  | skipUnequal x y => ⟨if m.get x ≠ m.get y then m.skip else m, r, none⟩
  | setByte x value => ⟨m.set x value, r, none⟩
  | addByte x value => ⟨m.set x (m.get x + value), r, none⟩
  | copy x y => ⟨m.set x (m.get y), r, none⟩
  | or x y => ⟨setLogic d m x (m.get x ||| m.get y), r, none⟩
  | and x y => ⟨setLogic d m x (m.get x &&& m.get y), r, none⟩
  | xor x y => ⟨setLogic d m x (m.get x ^^^ m.get y), r, none⟩
  | add x y => ⟨setWithFlag m x (sumFlag (m.get x) (m.get y)), r, none⟩
  | sub x y => ⟨setWithFlag m x (differenceFlag (m.get x) (m.get y)), r, none⟩
  | subFrom x y => ⟨setWithFlag m x (differenceFlag (m.get y) (m.get x)), r, none⟩
  | shiftRight x y =>
    let source := if d.shiftReadsY then m.get y else m.get x
    ⟨setWithFlag m x (source / 2, source % 2 = 1), r, none⟩
  | shiftLeft x y =>
    let source := if d.shiftReadsY then m.get y else m.get x
    ⟨setWithFlag m x (source * 2, 128 ≤ source), r, none⟩
  | setIndex target => ⟨m.setIndex target.val, r, none⟩
  | jumpOffset target =>
    ⟨{ m with pc := .address (target.val + (m.get (.ofNat 0)).toNat) }, r, none⟩
  | random x mask =>
    let (byte, r') := r.next
    ⟨m.set x (byte &&& mask), r', none⟩
  | draw x y rows =>
    match m.drawSprite (m.get x).toNat (m.get y).toNat rows.val with
    | (m', .ok hit) => ⟨m'.set flag (if hit then 1 else 0), r, none⟩
    | (m', .error failure) => ⟨m', r, some (.ofFailure failure)⟩
  | skipKeyDown x => ⟨if m.keypad.holds (keyOf (m.get x)) then m.skip else m, r, none⟩
  | skipKeyUp x => ⟨if m.keypad.holds (keyOf (m.get x)) then m else m.skip, r, none⟩
  | getDelay x => ⟨m.set x m.delay, r, none⟩
  | waitKey x => ⟨{ m.beginKeyWait x with pc := pc }, r, none⟩
  | setDelay x => ⟨{ m with delay := m.get x }, r, none⟩
  | setSound x => ⟨{ m with sound := m.get x }, r, none⟩
  | addIndex x => ⟨m.setIndex ((m.index.toNat + (m.get x).toNat) % 4096), r, none⟩
  | setGlyph x => ⟨m.setIndex (Font.address (m.get x).toNat), r, none⟩
  | storeDecimal x =>
    match m.writeBytes m.index.toNat (decimalDigits (m.get x)) with
    | (m', none) => ⟨m', r, none⟩
    | (m', some fault) => ⟨m', r, some (.fault (.machine fault))⟩
  | store x =>
    match m.writeBytes m.index.toNat (registersUpTo m x) with
    | (m', none) => ⟨movedIndex d m' x, r, none⟩
    | (m', some fault) => ⟨m', r, some (.fault (.machine fault))⟩
  | load x =>
    match loadRegisters m m.index.toNat (upTo x) with
    | (m', none) => ⟨movedIndex d m' x, r, none⟩
    | (m', some fault) => ⟨m', r, some (.fault (.machine fault))⟩
  | unknown _ =>
    match policy with
    | .strict => ⟨m, r, some (.fault .unknownOpcode)⟩
    | .lenient => ⟨m, r, none⟩

end Instruction

end Chip8
