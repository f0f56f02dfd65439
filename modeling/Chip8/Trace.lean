import Chip8.Instruction.Listing
import Chip8.Machine
import Chip8.Number.Read
import Chip8.Text.Fields
import Chip8.Text.Units
/-!
# Tracing

A trace shows each instruction that is about to run with the registers before it. Printing can be
limited to a window of the instruction count. A hook, if one is set, is called with each
instruction regardless of the window. `Observed` collects both in the order of events.
-/

namespace Chip8

/-- The line for an instruction word at an address, given by its mnemonic and operand, with a
snapshot of the registers from column 28 on or one blank behind a longer instruction. -/
def traceLine (pc word : Number) (mnemonic operand : String) (s : Snapshot) : String :=
  let left := Instruction.columns (pc.hex 3) (word.hex 4) (Instruction.phrase mnemonic operand)
  let gap := String.ofList (List.replicate (max 1 (28 - Text.units16 left)) ' ')
  left ++ gap ++ "I:" ++ s.index.hex 3 ++
    " V:" ++ String.intercalate " " (s.registers.map (Number.hex 2)) ++
    " SP:" ++ s.depth.text ++
    " DT:" ++ s.delay.hex 2 ++ " ST:" ++ s.sound.hex 2

/-- Whether instructions are printed, and the instruction counts between which they are. -/
structure Tracing where
  enabled : Bool
  first : Nat
  last : Nat
deriving DecidableEq, Repr

namespace Tracing

/-- No tracing at all. -/
def off : Tracing := ⟨false, 0, 0⟩

/-- The window of two numbers with a dash between them. -/
def window? (text : String) : Option (Nat × Nat) :=
  match Text.fields '-' text.toList with
  | [first, last] =>
    if first ≠ [] && last ≠ [] && first.all Number.isDecimal && last.all Number.isDecimal then
      some (Number.digitsValue 10 first, Number.digitsValue 10 last)
    else none
  | _ => none

/-- Printing is on when the switch is `1`; without a well-formed window it is not limited. -/
def ofTexts (switch window : Option String) : Tracing :=
  if switch = some "1" then
    let (first, last) := (window.bind window?).getD (0, 9007199254740991)
    ⟨true, first, last⟩
  else off

/-- Whether an instruction is printed at an instruction count. -/
def shows (t : Tracing) (count : Nat) : Bool := t.enabled && t.first ≤ count && count ≤ t.last

end Tracing

/-- A call of the hook: the address, the word and the instruction. -/
structure HookCall where
  pc : Place
  opcode : UInt16
  instruction : Instruction
deriving DecidableEq, Repr

/-- What a run let be seen: the lines printed and the calls of the hook. -/
structure Observed where
  lines : Array String
  calls : Array HookCall
deriving DecidableEq

namespace Observed

/-- Nothing to be seen. -/
def none : Observed := ⟨#[], #[]⟩

/-- What is seen in one run and then in another. -/
def append (a b : Observed) : Observed := ⟨a.lines ++ b.lines, a.calls ++ b.calls⟩

/-- What is seen one after the other. -/
instance : Append Observed := ⟨append⟩

end Observed

end Chip8
