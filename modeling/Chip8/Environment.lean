/-!
# The environment

The environment variables that the programs look at. A variable that is set to the empty text
counts as not given, except where a program asks for the variable itself.
-/

namespace Chip8

/-- The values of the variables, as far as they are set. -/
structure Environment where
  instructionsPerFrame : Option String := none
  unknownOpcodes : Option String := none
  dialect : Option String := none
  trace : Option String := none
  traceWindow : Option String := none
  rom : Option String := none
  traceLimit : Option String := none
deriving DecidableEq, Repr, Inhabited

namespace Environment

/-- The environment in which variables have the values that a look-up by name finds. -/
def ofLookup (get : String → Option String) : Environment where
  instructionsPerFrame := get "CHIP8_IPF"
  unknownOpcodes := get "CHIP8_UNKNOWN_OPCODES"
  dialect := get "CHIP8_QUIRKS"
  trace := get "CHIP8_TRACE"
  traceWindow := get "CHIP8_TRACE_WINDOW"
  rom := get "CHIP8_ROM"
  traceLimit := get "TRACE_MAX"

/-- The names of the variables. -/
def names : List String :=
  ["CHIP8_IPF", "CHIP8_UNKNOWN_OPCODES", "CHIP8_QUIRKS", "CHIP8_TRACE", "CHIP8_TRACE_WINDOW",
    "CHIP8_ROM", "TRACE_MAX"]

/-- The value of a variable unless it is empty. -/
def given (value : Option String) : Option String := value.filter (· ≠ "")

end Environment

end Chip8
