import Chip8.Fault
/-!
# The screen

Sixty-four by thirty-two pixels, each on or off. A sprite is a list of rows of eight pixels, the
most significant bit leftmost. Drawing flips the pixels under the set bits: the origin is reduced
to the screen, columns wrap around, and rows below the bottom edge are cut off. The remainder that
reduces the origin keeps the sign, so a sprite with a negative origin reaches pixels that do not
exist; drawing stops at the first of them.
-/

namespace Chip8

/-- The number of columns. -/
def Screen.width : Nat := 64

/-- The number of rows. -/
def Screen.height : Nat := 32

/-- The number of pixels. -/
def Screen.area : Nat := Screen.width * Screen.height

/-- The pixels row by row. -/
structure Screen where
  pixels : Vector Bool Screen.area
deriving DecidableEq

/-- Rows of eight pixels. -/
abbrev Sprite := List UInt8

namespace Sprite

/-- The rows of a list of values, of which the low eight bits count. -/
def ofInts (values : List Int) : Sprite := values.map UInt8.ofInt

/-- Whether a row has a pixel at a column, counted from the left. -/
def lit (row : UInt8) (column : Nat) : Bool := row.toNat.testBit (7 - column)

/-- The columns of a row that have a pixel, from left to right. -/
def columns (row : UInt8) : List Nat := (List.range 8).filter (lit row)

/-- The positions under the set bits of a row at height `y`, from left to right. -/
def rowTargets (x y : Int) (row : UInt8) : List (Int × Int) :=
  (columns row).map fun (c : Nat) => (Int.tmod (x + c) Screen.width, y)

/-- The positions under the set bits of rows whose first is at height `y`, those rows left out
that lie below the screen. -/
def targetsFrom (x y : Int) : Sprite → List (Int × Int)
  | [] => []
  | row :: rows =>
    if (Screen.height : Int) ≤ y then [] else rowTargets x y row ++ targetsFrom x (y + 1) rows

/-- The positions that drawing a sprite flips, in the order of drawing. -/
def targets (x y : Int) (rows : Sprite) : List (Int × Int) :=
  targetsFrom (Int.tmod x Screen.width) (Int.tmod y Screen.height) rows

end Sprite

namespace Screen

/-- The screen with all pixels off. -/
def blank : Screen := ⟨Vector.replicate area false⟩

/-- Where a pixel is stored. -/
def index (x y : Int) : Except InputError (Fin area) :=
  if h : 0 ≤ x ∧ x < width ∧ 0 ≤ y ∧ y < height then
    .ok ⟨(y * width + x).toNat, by simp only [area, width, height] at *; omega⟩
  else .error (.offScreen (.finite x) (.finite y))

/-- Whether the pixel at a position is on. -/
def pixel (s : Screen) (x y : Int) : Except InputError Bool := do
  return s.pixels[← index x y]

/-- Turns one stored pixel over, and says whether it was on. -/
def toggle (s : Screen) (k : Fin area) : Bool × Screen :=
  let lit := s.pixels[k]
  (lit, ⟨s.pixels.set k (!lit)⟩)

/-- Turns pixels over one after the other, up to the first that does not exist. The result says
whether any of them was on. -/
def flipAll (s : Screen) : List (Int × Int) → Bool → Screen × Except InputError Bool
  | [], hit => (s, .ok hit)
  | (x, y) :: rest, hit =>
    match index x y with
    | .error e => (s, .error e)
    | .ok k =>
      match s.toggle k with
      | (lit, s) => flipAll s rest (hit || lit)

/-- Combines a pixel with a bit: a set bit turns it over, and the result says whether that turned
it off. A clear bit does nothing, wherever it is. -/
def xor (s : Screen) (x y : Int) (bit : Bool) : Screen × Except InputError Bool :=
  if bit then s.flipAll [(x, y)] false else (s, .ok false)

/-- Draws a sprite and says whether that turned a pixel off. -/
def draw (s : Screen) (x y : Int) (rows : Sprite) : Screen × Except InputError Bool :=
  s.flipAll (Sprite.targets x y rows) false

/-- The number of pixels that are on. -/
def countLit (s : Screen) : Nat := s.pixels.toList.count true

/-- The pixels as bytes, one for on and zero for off. -/
def toBytes (s : Screen) : List UInt8 := s.pixels.toList.map fun p => if p then 1 else 0

/-- The text of the rows of a list of pixels, each row on a line of its own. -/
def rowTexts (on off : String) : Nat → List Bool → List String
  | 0, _ => []
  | n + 1, ps =>
    String.join ((ps.take width).map fun p => if p then on else off) ::
      rowTexts on off n (ps.drop width)

/-- The screen as text, a line a row, with a text for pixels that are on and one for those that are
off. -/
def render (s : Screen) (on off : String) : String :=
  String.intercalate "\n" (rowTexts on off height s.pixels.toList)

/-- The screen as text with a hash sign for on and a dot for off. -/
def toText (s : Screen) : String := s.render "#" "."

/-- The size of a screen, columns first. -/
def dimensions (_ : Screen) : Nat × Nat := (width, height)

/-- Turning a pixel over twice changes nothing. -/
theorem toggle_toggle (s : Screen) (k : Fin area) : ((s.toggle k).2.toggle k).2 = s := by
  cases s
  simp [toggle]

end Screen

end Chip8
