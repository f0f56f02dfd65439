import Chip8.Digit
/-!
# Instructions

The instruction set as data, and decoding: every sixteen-bit word is exactly one instruction, where
words without a meaning decode to `unknown`. Whether such a word may be executed is not decided
here.
-/

namespace Chip8

/-- An address that an instruction can name. -/
abbrev Address := Fin 4096

/-- The instructions with their operands, `x` and `y` being registers. -/
inductive Instruction where
  /-- Turns every pixel off. -/
  | clear
  /-- Returns to the address on top of the call stack. -/
  | ret
  | jump (target : Address)
  | call (target : Address)
  | skipEqualByte (x : Register) (value : UInt8)
  | skipUnequalByte (x : Register) (value : UInt8)
  | skipEqual (x y : Register)
  | skipUnequal (x y : Register)
  | setByte (x : Register) (value : UInt8)
  | addByte (x : Register) (value : UInt8)
  | copy (x y : Register)
  | or (x y : Register)
  | and (x y : Register)
  | xor (x y : Register)
  | add (x y : Register)
  | sub (x y : Register)
  | shiftRight (x y : Register)
  /-- Subtracts `x` from `y` and leaves the difference in `x`. -/
  | subFrom (x y : Register)
  | shiftLeft (x y : Register)
  | setIndex (target : Address)
  /-- Jumps to the target plus register zero. -/
  | jumpOffset (target : Address)
  | random (x : Register) (mask : UInt8)
  | draw (x y : Register) (rows : Digit)
  | skipKeyDown (x : Register)
  | skipKeyUp (x : Register)
  | getDelay (x : Register)
  | waitKey (x : Register)
  | setDelay (x : Register)
  | setSound (x : Register)
  | addIndex (x : Register)
  /-- Points the index at the sprite of a digit. -/
  | setGlyph (x : Register)
  /-- Stores the three decimal digits of a register. -/
  | storeDecimal (x : Register)
  /-- Stores the registers from zero up to `x`. -/
  | store (x : Register)
  /-- Loads the registers from zero up to `x`. -/
  | load (x : Register)
  | unknown (word : UInt16)
deriving DecidableEq, Repr

namespace Instruction

/-- The hexadecimal digit of a word at a place, place zero being the lowest. -/
def nibble (word : UInt16) (place : Nat) : Digit := .ofNat (word.toNat >>> (4 * place))

/-- The low byte of a word. -/
def lowByte (word : UInt16) : UInt8 := word.toUInt8

/-- The low twelve bits of a word. -/
def lowAddress (word : UInt16) : Address := ⟨word.toNat % 4096, Nat.mod_lt _ (by decide)⟩

/-- The instruction of a word that starts with the digit 8: arithmetic on two registers. -/
def decodeArithmetic (word : UInt16) : Instruction :=
  let x := nibble word 2
  let y := nibble word 1
  match (nibble word 0).val with
  | 0x0 => copy x y
  | 0x1 => or x y
  | 0x2 => and x y
  | 0x3 => xor x y
  | 0x4 => add x y
  | 0x5 => sub x y
  | 0x6 => shiftRight x y
  | 0x7 => subFrom x y
  | 0xE => shiftLeft x y
  | _ => unknown word

/-- The instruction of a word that starts with the digit F: timers, keys, the index and memory. -/
def decodeMachine (word : UInt16) : Instruction :=
  let x := nibble word 2
  match (lowByte word).toNat with
  | 0x07 => getDelay x
  | 0x0A => waitKey x
  | 0x15 => setDelay x
  | 0x18 => setSound x
  | 0x1E => addIndex x
  | 0x29 => setGlyph x
  | 0x33 => storeDecimal x
  | 0x55 => store x
  | 0x65 => load x
  | _ => unknown word

/-- The instruction that a word encodes. -/
def decode (word : UInt16) : Instruction :=
  let x := nibble word 2
  let y := nibble word 1
  match (nibble word 3).val with
  | 0x0 => if word = 0x00E0 then clear else if word = 0x00EE then ret else unknown word
  | 0x1 => jump (lowAddress word)
  | 0x2 => call (lowAddress word)
  | 0x3 => skipEqualByte x (lowByte word)
  | 0x4 => skipUnequalByte x (lowByte word)
  | 0x5 => if (nibble word 0).val = 0 then skipEqual x y else unknown word
  | 0x6 => setByte x (lowByte word)
  | 0x7 => addByte x (lowByte word)
  | 0x8 => decodeArithmetic word
  | 0x9 => if (nibble word 0).val = 0 then skipUnequal x y else unknown word
  | 0xA => setIndex (lowAddress word)
  | 0xB => jumpOffset (lowAddress word)
  | 0xC => random x (lowByte word)
  | 0xD => draw x y (nibble word 0)
  | 0xE =>
    if lowByte word = 0x9E then skipKeyDown x
    else if lowByte word = 0xA1 then skipKeyUp x
    else unknown word
  | _ => decodeMachine word

/-- The instruction that the low sixteen bits of an integer encode. -/
def decodeInt (word : Int) : Instruction := decode (UInt16.ofInt word)

end Instruction

end Chip8
