/-!
# Sixteen-bit units

The length of a text when it is stored in units of sixteen bits: a character beyond the basic plane
takes two of them, every other one.
-/

namespace Chip8.Text

/-- The number of sixteen-bit units that a text takes. -/
def units16 (s : String) : Nat :=
  s.toList.foldl (fun n c => n + if c.toNat < 0x10000 then 1 else 2) 0

end Chip8.Text
