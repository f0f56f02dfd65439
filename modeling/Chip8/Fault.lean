import Chip8.Place
/-!
# Faults and errors

Everything that can go wrong, as causes. A `MachineFault` arises in the memory or the call stack;
a `Fault` is one of those, or a word that is no instruction, together with the place in the program
where the engine stopped. An `InputError` is an argument that a caller should not have given, a
`RomError` a program image of an impossible size, and a `SystemError` a refusal by the system.
`Error` is any of them; its `message` is the text that is reported.
-/

namespace Chip8

/-- What the memory and the call stack refuse to do. -/
inductive MachineFault where
  | stackOverflow
  | stackUnderflow
  | addressOutOfRange (place : Place)
  | protectedWrite (address : Int) (value : UInt8)
deriving DecidableEq, Repr

namespace MachineFault

/-- The word that names the kind of fault. -/
def kind : MachineFault → String
  | stackOverflow => "stack-overflow"
  | stackUnderflow => "stack-underflow"
  | addressOutOfRange _ => "address-out-of-range"
  | protectedWrite _ _ => "protected-write"

/-- A place as a fault shows it: a negative one in decimal, any other in hexadecimal. -/
def placeText (place : Place) : String :=
  if place.isNegative then place.text else "$" ++ place.hex 0

/-- What exactly was refused. -/
def detail : MachineFault → String
  | stackOverflow => "call depth exceeds 16"
  | stackUnderflow => "return with an empty call stack"
  | addressOutOfRange p => "address " ++ placeText p ++ " is outside $000-$FFF"
  | protectedWrite a v =>
    "write of $" ++ Text.hex 2 v.toNat ++ " to reserved address $" ++ Text.hex 3 a

/-- The message of a fault of the machine: its kind and what there is to say of it. -/
def message (f : MachineFault) : String := f.kind ++ ": " ++ f.detail

end MachineFault

/-- Why an instruction could not be completed. -/
inductive FaultCause where
  | machine (fault : MachineFault)
  | unknownOpcode
deriving DecidableEq, Repr

/-- A stop of the engine: the cause, the address of the instruction, and its word, which is zero
when the word itself could not be fetched. -/
structure Fault where
  cause : FaultCause
  pc : Place
  opcode : UInt16
deriving DecidableEq, Repr

namespace Fault

/-- The word that names the kind of fault. -/
def kind (f : Fault) : String :=
  match f.cause with
  | .machine m => m.kind
  | .unknownOpcode => "unknown-opcode"

/-- What exactly went wrong. -/
def detail (f : Fault) : String :=
  match f.cause with
  | .machine m => m.detail
  | .unknownOpcode => "$" ++ Text.hex 4 f.opcode.toNat ++ " is not a Chip-8 instruction"

/-- The message of a fault: what it is, and the instruction and the address at which it occurred. -/
def message (f : Fault) : String :=
  f.kind ++ " at PC=$" ++ f.pc.hex 4 ++ " op=$" ++ Text.hex 4 f.opcode.toNat ++ ": " ++ f.detail

end Fault

/-- An argument outside what an operation accepts. -/
inductive InputError where
  | noRegister (index : Number)
  | noKey (index : Number)
  | offScreen (x y : Number)
  | bufferLength (length : Number)
  | bufferMemory
  | fontTooLong
  | sampleRate (rate : Number)
  | keymapEntry (entry : String)
  | notWhole (source text : String)
  | notPositive (source : String)
  | unknownMode (text : String)
  | unknownName (name : String)
deriving DecidableEq

/-- The message that an input is refused with. -/
def InputError.message : InputError → String
  | noRegister r => "register V" ++ r.text ++ " does not exist"
  | noKey k => "key index " ++ k.text ++ " is outside 0x0-0xF"
  | offScreen x y =>
    "pixel (" ++ x.text ++ ", " ++ y.text ++ ") is outside the 64x32 display"
  | bufferLength n => "Invalid typed array length: " ++ n.text
  | bufferMemory => "Array buffer allocation failed"
  | fontTooLong => "offset is out of bounds"
  | sampleRate r => "sample rate must be positive, got " ++ r.text
  | keymapEntry e => "keymap entry \"" ++ e ++ "\" must look like Code=HexDigit"
  | notWhole source text => source ++ ": expected a positive integer, got \"" ++ text ++ "\""
  | notPositive source => source ++ ": must be at least 1"
  | unknownMode text =>
    "CHIP8_UNKNOWN_OPCODES: expected \"strict\" or \"lenient\", got \"" ++ text ++ "\""
  | unknownName name =>
    "CHIP8_QUIRKS: unknown quirk \"" ++ name ++
      "\" (expected shift-vy, memory-increments-i, vf-reset)"

/-- What an operation on the machine can fail with. -/
inductive Failure where
  | machine (fault : MachineFault)
  | range (error : InputError)
deriving DecidableEq

/-- A program image of an impossible size. The last two carry the path of the file it came from. -/
inductive RomError where
  | tooLarge (size : Nat)
  | fileEmpty (path : String)
  | fileTooLarge (path : String) (size : Nat)
deriving DecidableEq, Repr

namespace RomError

/-- The word that names the kind of error. -/
def kind : RomError → String
  | tooLarge _ => "rom-too-large"
  | fileEmpty _ => "rom-empty"
  | fileTooLarge _ _ => "rom-too-large"

/-- The message that a program is refused with. -/
def message : RomError → String
  | tooLarge size =>
    "ROM is " ++ Number.intText size ++ " bytes; at most 3584 bytes fit at $200"
  | fileEmpty path => "ROM file is empty: " ++ path
  | fileTooLarge path size =>
    "ROM file " ++ path ++ " is " ++ Number.intText size ++ " bytes; at most 3584 bytes fit"

end RomError

/-- A refusal by the system: a file operation, or a number that a binary field or the size of a
buffer cannot be. -/
inductive SystemError where
  | noSuchFile
  | isDirectory
  | notDirectory
  | alreadyExists
  | nameTooLong
  | nulInPath
  | fieldOutOfRange
deriving DecidableEq, Repr

/-- The code under which the system reports its refusal. -/
def SystemError.code : SystemError → String
  | noSuchFile => "ENOENT"
  | isDirectory => "EISDIR"
  | notDirectory => "ENOTDIR"
  | alreadyExists => "EEXIST"
  | nameTooLong => "ENAMETOOLONG"
  | nulInPath => "ERR_INVALID_ARG_VALUE"
  | fieldOutOfRange => "ERR_OUT_OF_RANGE"

/-- Anything that an operation can fail with. -/
inductive Error where
  | range (error : InputError)
  | machine (fault : MachineFault)
  | stopped (fault : Fault)
  | rom (error : RomError)
  | system (error : SystemError)
  /-- A picture was to be painted on a surface that has no area. -/
  | noSurface
deriving DecidableEq

/-- The error as which the failure of a part of the machine is reported. -/
def Failure.toError : Failure → Error
  | machine fault => .machine fault
  | range error => .range error

namespace Error

/-- The name of the class of errors; a system error goes by its code. -/
def label : Error → String
  | range _ => "RangeError"
  | machine _ => "MachineFault"
  | stopped _ => "VMFault"
  | rom _ => "RomError"
  | system e => e.code
  | noSurface => "TypeError"

/-- The text of an error. A system error has none besides its code. -/
def message : Error → String
  | range e => e.message
  | machine f => f.message
  | stopped f => f.message
  | rom e => e.message
  | system e => e.code
  | noSurface => "Cannot set properties of null (setting \x270\x27)"

/-- How an error is printed: its class and its text, or its code alone. -/
def report : Error → String
  | system e => e.code
  | e => e.label ++ ": " ++ e.message

end Error

end Chip8
