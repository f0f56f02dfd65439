import Chip8.Instruction
import Chip8.Place
import Chip8.Text.Blank
/-!
# Listings

Instructions in assembler notation: a mnemonic and its operands, the destination first. A listing
has a line for every two bytes of a program, with the address, the word and the instruction; a last
odd byte has no line.
-/

namespace Chip8

/-- The name of a register. -/
def Register.name (r : Register) : String := "V" ++ Text.hex 1 r.val

namespace Instruction

/-- An address operand. -/
def addressText (target : Address) : String := "$" ++ Text.hex 3 target.val

/-- A register and an immediate byte. -/
def registerByte (x : Register) (value : UInt8) : String :=
  x.name ++ ", #$" ++ Text.hex 2 value.toNat

/-- Two registers. -/
def registerPair (x y : Register) : String := x.name ++ ", " ++ y.name

/-- The word that names the operation. -/
def mnemonic : Instruction → String
  | clear => "CLS"
  | ret => "RET"
  | jump _ | jumpOffset _ => "JP"
  | call _ => "CALL"
  | skipEqualByte _ _ | skipEqual _ _ => "SE"
  | skipUnequalByte _ _ | skipUnequal _ _ => "SNE"
  | setByte _ _ | copy _ _ | setIndex _ | getDelay _ | waitKey _ | setDelay _ | setSound _
  | setGlyph _ | storeDecimal _ | store _ | load _ => "LD"
  | addByte _ _ | add _ _ | addIndex _ => "ADD"
  | or _ _ => "OR"
  | and _ _ => "AND"
  | xor _ _ => "XOR"
  | sub _ _ => "SUB"
  | shiftRight _ _ => "SHR"
  | subFrom _ _ => "SUBN"
  | shiftLeft _ _ => "SHL"
  | random _ _ => "RND"
  | draw _ _ _ => "DRW"
  | skipKeyDown _ => "SKP"
  | skipKeyUp _ => "SKNP"
  | unknown _ => "???"

/-- The operands, none being the empty text. -/
def operand : Instruction → String
  | clear | ret | unknown _ => ""
  | jump target | call target => addressText target
  | jumpOffset target => "V0, " ++ addressText target
  | setIndex target => "I, " ++ addressText target
  | skipEqualByte x value | skipUnequalByte x value | setByte x value | addByte x value
  | random x value => registerByte x value
  | skipEqual x y | skipUnequal x y | copy x y | or x y | and x y | xor x y | add x y | sub x y
  | shiftRight x y | subFrom x y | shiftLeft x y => registerPair x y
  | draw x y rows => registerPair x y ++ ", " ++ toString rows.val
  | skipKeyDown x | skipKeyUp x => x.name
  | getDelay x => x.name ++ ", DT"
  | waitKey x => x.name ++ ", K"
  | setDelay x => "DT, " ++ x.name
  | setSound x => "ST, " ++ x.name
  | addIndex x => "I, " ++ x.name
  | setGlyph x => "F, " ++ x.name
  | storeDecimal x => "B, " ++ x.name
  | store x => "[I], " ++ x.name
  | load x => x.name ++ ", [I]"

/-- A mnemonic with its operands behind it, if there are any, and no blanks around. -/
def phrase (mnemonic operand : String) : String :=
  Text.trim (if operand = "" then mnemonic else mnemonic ++ " " ++ operand)

/-- An address, a word and a phrase in columns. -/
def columns (address word text : String) : String := address ++ "  " ++ word ++ "  " ++ text

/-- The line for an instruction word at a place. -/
def listingLine (place : Place) (word : UInt16) : String :=
  let instruction := decode word
  columns (place.hex 3) (Text.hex 4 word.toNat) (phrase instruction.mnemonic instruction.operand)

/-- The big-endian word of two bytes. -/
def wordOf (high low : UInt8) : UInt16 := high.toUInt16 * 256 + low.toUInt16

/-- The byte of a program at a place, the program starting at an origin. Outside the program there
are zeros. -/
def byteAt (program : Array UInt8) (origin place : Place) : UInt8 :=
  match origin.distance? place with
  | some k => program.getD k 0
  | none => 0

/-- The line for the word of a number in a program that starts at an origin. -/
def lineOf (program : Array UInt8) (origin : Place) (number : Nat) : String :=
  let place := origin.plus (2 * number)
  listingLine place
    (wordOf (byteAt program origin place) (byteAt program origin (place.plus 1)))

/-- The lines for the bytes of a program that starts at an origin. -/
def listing (origin : Place) (bytes : List UInt8) : List String :=
  (List.range (bytes.length / 2)).map (lineOf bytes.toArray origin)

/-- A listing has a line for every two bytes. -/
theorem length_listing (origin : Place) (bytes : List UInt8) :
    (listing origin bytes).length = bytes.length / 2 := by
  simp [listing]

end Instruction

end Chip8
