/-!
# Dialects

Interpreters differ on a few instructions. A `Dialect` says how three of these behave; all of them
off is the modern convention. An `UnknownPolicy` says what happens at a word that is no
instruction.
-/

namespace Chip8

/-- The behaviours on which interpreters differ. -/
structure Dialect where
  /-- Shifts take their operand from `y` instead of `x`. -/
  shiftReadsY : Bool := false
  /-- Storing and loading registers leaves the index behind the last one transferred. -/
  transferMovesIndex : Bool := false
  /-- The logical operations clear the flag register. -/
  logicClearsFlag : Bool := false
deriving DecidableEq, Repr, Inhabited

/-- What happens at a word that is no instruction. -/
inductive UnknownPolicy where
  /-- The engine stops with a fault. -/
  | strict
  /-- The word is passed over. -/
  | lenient
deriving DecidableEq, Repr, Inhabited

end Chip8
