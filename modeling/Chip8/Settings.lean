import Chip8.Dialect
import Chip8.Environment
import Chip8.Fault
import Chip8.Number.Read
import Chip8.Text.Fields
import Chip8.Text.LowerCase
/-!
# Settings

What a session is configured with: how many instructions make a frame, what happens at unknown
words, and the dialect. Each setting, and each flag of the dialect on its own, is the option's value
if there is one, else the environment's, else the default. What the environment says has to be
well-formed even where an option overrides it.
-/

namespace Chip8

/-- A dialect of which some flags are left open. -/
structure DialectChoice where
  shiftReadsY : Option Bool := none
  transferMovesIndex : Option Bool := none
  logicClearsFlag : Option Bool := none
deriving DecidableEq, Repr, Inhabited

namespace DialectChoice

/-- The dialect of a choice, open flags being taken from a base. -/
def applyTo (c : DialectChoice) (base : Dialect) : Dialect where
  shiftReadsY := c.shiftReadsY.getD base.shiftReadsY
  transferMovesIndex := c.transferMovesIndex.getD base.transferMovesIndex
  logicClearsFlag := c.logicClearsFlag.getD base.logicClearsFlag

/-- Turns on the flag that a name stands for. -/
def turnOn? (c : DialectChoice) (name : String) : Option DialectChoice :=
  if name = "shift-vy" then some { c with shiftReadsY := some true }
  else if name = "memory-increments-i" then some { c with transferMovesIndex := some true }
  else if name = "vf-reset" then some { c with logicClearsFlag := some true }
  else none

/-- The name that an entry of a list of names gives, in lower case and without blanks around. -/
def entryName (entry : List Char) : String :=
  String.ofList (Text.lowerChars (Text.trimChars entry))

/-- Turns on the flags that entries name. Empty entries do not count. -/
def addEntries (c : DialectChoice) : List (List Char) → Except InputError DialectChoice
  | [] => .ok c
  | entry :: rest =>
    if entryName entry = "" then c.addEntries rest
    else match c.turnOn? (entryName entry) with
      | some c' => c'.addEntries rest
      | none => .error (.unknownName (entryName entry))

/-- The choice that a comma-separated list of names makes. -/
def ofList (list : String) : Except InputError DialectChoice :=
  ({} : DialectChoice).addEntries (Text.fields ',' list.toList)

end DialectChoice

/-- What a session is run with. -/
structure Settings where
  instructionsPerFrame : Number := .finite 10
  unknownOpcodes : UnknownPolicy := .strict
  dialect : Dialect := {}
deriving DecidableEq, Inhabited

/-- What a caller asks for; anything left open is decided elsewhere. -/
structure Options where
  instructionsPerFrame : Option Number := none
  unknownOpcodes : Option UnknownPolicy := none
  dialect : DialectChoice := {}
deriving DecidableEq, Inhabited

namespace Settings

/-- How often the timers tick in a second, and so how many frames a second has. -/
def framesPerSecond : Nat := 60

/-- Reads the number of instructions in a frame: decimal digits with blanks around them, of a
positive value. -/
def readBudget (source text : String) : Except InputError Number :=
  let digits := Text.trimChars text.toList
  if digits.isEmpty || !digits.all Number.isDecimal then .error (.notWhole source text)
  else if Number.digitsValue 10 digits = 0 then .error (.notPositive source)
  else .ok (Number.ofDecimal false (Number.digitsValue 10 digits) 0)

/-- Reads what happens at unknown words. -/
def readPolicy (text : String) : Except InputError UnknownPolicy :=
  match Text.lower (Text.trim text) with
  | "strict" => .ok .strict
  | "lenient" => .ok .lenient
  | _ => .error (.unknownMode text)

/-- The settings that the environment asks for. -/
def ofEnvironment (env : Environment) : Except InputError Settings := do
  let instructionsPerFrame ← match Environment.given env.instructionsPerFrame with
    | some text => readBudget "CHIP8_IPF" text
    | none => pure (.finite 10)
  let unknownOpcodes ← match Environment.given env.unknownOpcodes with
    | some text => readPolicy text
    | none => pure .strict
  let dialect ← match Environment.given env.dialect with
    | some text => (·.applyTo {}) <$> DialectChoice.ofList text
    | none => pure {}
  return { instructionsPerFrame, unknownOpcodes, dialect }

/-- Settings from options over the environment. An option's budget is read from its text as one in
the environment is. -/
def resolve (options : Options) (env : Environment) : Except InputError Settings := do
  let base ← ofEnvironment env
  let instructionsPerFrame ← match options.instructionsPerFrame with
    | some n => readBudget "instructionsPerFrame" n.text
    | none => pure base.instructionsPerFrame
  return {
    instructionsPerFrame
    unknownOpcodes := options.unknownOpcodes.getD base.unknownOpcodes
    dialect := options.dialect.applyTo base.dialect }

end Settings

end Chip8
