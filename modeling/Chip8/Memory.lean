import Chip8.Font
import Chip8.Rom
/-!
# Memory

Four kilobytes. Programs start at `$200`; the region below holds the built-in digits, and once
these are installed it is read-only. An address or a write that is refused leaves the memory as it
was.
-/

namespace Chip8

/-- The number of bytes of memory. -/
def Memory.size : Nat := 4096

/-- The address at which programs start. -/
def Memory.programStart : Nat := 512

/-- The bytes, and whether the region below the program is read-only. -/
structure Memory where
  bytes : Vector UInt8 Memory.size
  reservedProtected : Bool
deriving DecidableEq

namespace Memory

/-- All zero and writable everywhere. -/
def blank : Memory := ⟨Vector.replicate size 0, false⟩

/-- The byte at an address. -/
def read (m : Memory) (address : Int) : Except MachineFault UInt8 :=
  if h : 0 ≤ address ∧ address.toNat < size then .ok (m.bytes.get ⟨address.toNat, h.2⟩)
  else .error (.addressOutOfRange (.address address))

/-- Why a byte cannot be stored at an address, if so. -/
def refusal (m : Memory) (address : Int) (value : UInt8) : Option MachineFault :=
  if address < 0 ∨ size ≤ address then some (.addressOutOfRange (.address address))
  else if m.reservedProtected && address < programStart then some (.protectedWrite address value)
  else none

/-- The memory with another byte at an address that exists. -/
def set (m : Memory) (address : Int) (value : UInt8) : Memory :=
  { m with bytes := m.bytes.setIfInBounds address.toNat value }

/-- Stores bytes from an address on, up to the first that cannot be stored. -/
def putAll (m : Memory) (address : Int) : List UInt8 → Memory × Option MachineFault
  | [] => (m, none)
  | b :: rest =>
    match m.refusal address b with
    | some fault => (m, some fault)
    | none => (m.set address b).putAll (address + 1) rest

/-- Stores the low eight bits of a value at an address. -/
def write (m : Memory) (address value : Int) : Memory × Except MachineFault Unit :=
  let byte := UInt8.ofInt value
  match m.refusal address byte with
  | some fault => (m, .error fault)
  | none => (m.set address byte, .ok ())

/-- Puts a program at the start of programs, zeros behind it up to the end of memory. -/
def load (m : Memory) (rom : Rom) : Memory :=
  let image := rom.bytes.toArray
  { m with
    bytes := Vector.ofFn fun k =>
      if k.val < programStart then m.bytes[k] else image.getD (k.val - programStart) 0 }

/-- Loads a program of some bytes, unless there are too many of them. -/
def loadBytes (m : Memory) (bytes : List UInt8) : Memory × Except RomError Unit :=
  match Rom.ofBytes bytes with
  | .error e => (m, .error e)
  | .ok rom => (m.load rom, .ok ())

/-- Puts sprite rows where the digits belong and protects the region below the program. -/
def installFont (m : Memory) (rows : List UInt8) : Memory × Except InputError Unit :=
  if Font.base + rows.length ≤ size then
    let image := rows.toArray
    let bytes := Vector.ofFn fun k =>
      if k.val < Font.base then m.bytes[k] else image.getD (k.val - Font.base) m.bytes[k]
    ({ bytes, reservedProtected := true }, .ok ())
  else (m, .error .fontTooLong)

/-- The memory at power-on, with the digits installed. -/
def powerOn : Memory :=
  { bytes := Vector.ofFn fun k =>
      if k.val < Font.base then 0 else Font.rows.getD (k.val - Font.base) 0
    reservedProtected := true }

/-- The two bytes at an address and behind it, the higher byte first. -/
def word (m : Memory) (address : Int) : Except MachineFault UInt16 := do
  let high ← m.read address
  let low ← m.read (address + 1)
  return high.toUInt16 * 256 + low.toUInt16

/-- What is at a place, where an operation looks up addresses. Nothing is at a stray place. -/
def atPlace {α : Type} (place : Place) (look : Int → Except MachineFault α) :
    Except MachineFault α :=
  match place with
  | .address a => look a
  | .stray _ => .error (.addressOutOfRange place)

/-- An end of a range of bytes: from the start of memory if it is not negative, and else from the
end of memory, in either case no further than memory reaches. -/
def bound (i : Int) : Nat := if i < 0 then (i + size).toNat else min i.toNat size

/-- The bytes from one end of a range up to the other. -/
def slice (m : Memory) (first last : Int) : List UInt8 :=
  (m.bytes.toList.take (bound last)).drop (bound first)

end Memory

end Chip8
