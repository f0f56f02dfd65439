/-!
# The built-in digits

Sprites of the sixteen hexadecimal digits, four pixels wide and five rows tall, in the high half of
each byte. They lie one after the other in memory from `$050` on.
-/

namespace Chip8.Font

/-- The address of the first digit's first row. -/
def base : Nat := 0x50

/-- Rows in a digit. -/
def glyphRows : Nat := 5

/-- The rows of the sixteen digits, five bytes each. -/
def rows : List UInt8 :=
  [0xF0, 0x90, 0x90, 0x90, 0xF0,
   0x20, 0x60, 0x20, 0x20, 0x70,
   0xF0, 0x10, 0xF0, 0x80, 0xF0,
   0xF0, 0x10, 0xF0, 0x10, 0xF0,
   0x90, 0x90, 0xF0, 0x10, 0x10,
   0xF0, 0x80, 0xF0, 0x10, 0xF0,
   0xF0, 0x80, 0xF0, 0x90, 0xF0,
   0xF0, 0x10, 0x20, 0x40, 0x40,
   0xF0, 0x90, 0xF0, 0x90, 0xF0,
   0xF0, 0x90, 0xF0, 0x10, 0xF0,
   0xF0, 0x90, 0xF0, 0x90, 0x90,
   0xE0, 0x90, 0xE0, 0x90, 0xE0,
   0xF0, 0x80, 0x80, 0x80, 0xF0,
   0xE0, 0x90, 0x90, 0x90, 0xE0,
   0xF0, 0x80, 0xF0, 0x80, 0xF0,
   0xF0, 0x80, 0xF0, 0x80, 0x80]

/-- Where the sprite of a digit starts; only the low four bits of the digit count. -/
def address (digit : Int) : Nat := base + (digit % 16).toNat * glyphRows

/-- There are as many rows as sixteen glyphs have. -/
theorem length_rows : rows.length = 16 * glyphRows := rfl

/-- Every digit lies within the rows that were loaded. -/
theorem address_add_glyphRows_le (digit : Int) :
    address digit + glyphRows ≤ base + rows.length := by
  rw [length_rows]
  simp only [address, glyphRows]
  omega

end Chip8.Font
