import Chip8.Number.Hex
import Chip8.Number.Text
/-!
# Places

Where in memory something is asked for or goes on. A place is named by a number, and the numbers of
interest are addresses, which are whole. A host may name any number; one with a fraction, or too
large for double precision to count in ones, is a stray place. No stray place is in memory, and
arithmetic on it is that of double precision.
-/

namespace Chip8

/-- An address, or a number that is none. -/
inductive Place where
  | address (a : Int)
  | stray (n : Number)
deriving DecidableEq, Repr

namespace Place

/-- Whether an integer and the two that follow it are told apart in double precision. -/
def isCounted (a : Int) : Bool := -9007199254740990 ≤ a && a ≤ 9007199254740990

/-- The place of a number: an address if it is one that can be counted to. -/
def ofNumber (n : Number) : Place :=
  match n.toInt? with
  | some a => if isCounted a then address a else stray n
  | none => stray n

/-- The number of a place. -/
def number : Place → Number
  | address a => .finite a
  | stray n => n

/-- The whole part of the number that names a place. -/
def whole : Place → Int
  | address a => a
  | stray n => n.truncated

/-- The place some bytes behind another one, in double precision. -/
def plus : Place → Nat → Place
  | address a, k => if isCounted (a + k) then address (a + k) else ofNumber (.ofInt (a + k))
  | stray n, k => ofNumber (n.add .binary64 (.finite k))

/-- How many bytes a place lies behind an origin, if that is a natural number. -/
def distance? : (origin place : Place) → Option Nat
  | address b, address a => if b ≤ a then some (a - b).toNat else none
  | origin, place => (place.number.add .binary64 origin.number.negate).toNat?

/-- The place behind an instruction, in sixteen bits. -/
def next : Place → Place
  | address a => address ((a + 2) % 65536)
  | stray n => address ((n.add .binary64 (.finite 2)).truncated % 65536)

/-- Whether a place lies behind an address. -/
def isBeyond (bound : Int) : Place → Bool
  | address a => bound < a
  | stray n => n.isAbove bound

/-- Whether a place lies in front of the address zero. -/
def isNegative : Place → Bool
  | address a => a < 0
  | stray n => n.isBelow 0

/-- A place in upper-case hexadecimal, zeros filling it up to `width` places. -/
def hex (width : Nat) : Place → String
  | address a => Text.hex width a
  | stray n => n.hex width

/-- The decimal text of a place. -/
def text : Place → String
  | address a => Number.intText a
  | stray n => n.text

/-- Integers that double precision counts name addresses. -/
theorem ofNumber_int {a : Int} (h : isCounted a = true) :
    ofNumber (.finite a) = address a := by
  simp [ofNumber, Number.toInt?_finite_int, h]

/-- Within reach, the place some bytes further on is the address that much greater. -/
theorem plus_address {a : Int} {k : Nat} (h : isCounted (a + k) = true) :
    (address a).plus k = address (a + k) := by
  simp [plus, h]

/-- In sixteen bits the place behind an instruction is two bytes further on. -/
theorem next_address {a : Nat} (h : a + 2 < 65536) :
    (address a).next = address (a + 2 : Nat) := by
  rw [next, address.injEq]
  omega

end Place

end Chip8
