import Chip8.Screen
/-!
# Positions between pixels

Positions on the screen as a host may name them, by numbers that need not be whole. A position off
the screen is refused whatever its fractions are. On the screen a position counts by its place in
the row-by-row order, which is the height times the width and then the column, computed in double
precision. Where that is no whole number there is no pixel: nothing is on there, and nothing can be
turned over. Sprites are reduced to the screen and laid out from such an origin as from a whole one.
On whole positions, and from whole origins, everything is as `index` and `draw` have it.
-/

namespace Chip8

namespace Sprite

/-- The positions that drawing rows flips, the first row being the one with a number below an
origin on the screen, up to the first row below the screen. -/
def positionsFrom (x y : Number) : (number : Nat) → Sprite → List (Number × Number)
  | _, [] => []
  | n, row :: rows =>
    let height := y.add .binary64 (.finite n)
    if height.isAbove Screen.height || height = .finite Screen.height then []
    else
      (columns row).map (fun (c : Nat) =>
        ((x.add .binary64 (.finite c)).remainder Screen.width, height)) ++
      positionsFrom x y (n + 1) rows

/-- The positions that drawing a sprite at numbers flips, in the order of drawing. -/
def positions (x y : Number) (rows : Sprite) : List (Number × Number) :=
  positionsFrom (x.remainder Screen.width) (y.remainder Screen.height) 0 rows

end Sprite

namespace Screen

/-- Whether a coordinate lies outside the range of an extent. -/
def outside (extent : Nat) (n : Number) : Bool :=
  n.isBelow 0 || n.isAbove extent || n = .finite extent

/-- The pixel at a position of which a coordinate has a fraction, if there is one. -/
def fractionIndex (x y : Number) : Except InputError (Option (Fin area)) :=
  if outside width x || outside height y then .error (.offScreen x y)
  else
    match ((y.mul .binary64 (.finite width)).add .binary64 x).toNat? with
    | some k => .ok (if h : k < area then some ⟨k, h⟩ else none)
    | none => .ok none

/-- The pixel at a position, if there is one. -/
def pixelIndex (x y : Number) : Except InputError (Option (Fin area)) :=
  match x.toInt?, y.toInt? with
  | some x, some y => some <$> index x y
  | _, _ => fractionIndex x y

/-- Whether a pixel is on at a position. -/
def pixelAt (s : Screen) (x y : Number) : Except InputError Bool := do
  return (← pixelIndex x y).any fun k => s.pixels.get k

/-- Turns over what pixels there are at positions, up to the first that is off the screen. The
result says whether any of them was on. -/
def flipAt (s : Screen) : List (Number × Number) → Bool → Screen × Except InputError Bool
  | [], hit => (s, .ok hit)
  | (x, y) :: rest, hit =>
    match pixelIndex x y with
    | .error e => (s, .error e)
    | .ok none => s.flipAt rest hit
    | .ok (some k) =>
      match s.toggle k with
      | (lit, s) => s.flipAt rest (hit || lit)

/-- Combines the pixel at a position with a bit, as `xor` does. -/
def xorAt (s : Screen) (x y : Number) (bit : Bool) : Screen × Except InputError Bool :=
  if bit then s.flipAt [(x, y)] false else (s, .ok false)

/-- Draws a sprite with its origin at a position and says whether that turned a pixel off. -/
def drawAt (s : Screen) (x y : Number) (rows : Sprite) : Screen × Except InputError Bool :=
  match x.toInt?, y.toInt? with
  | some x, some y => s.draw x y rows
  | _, _ => s.flipAt (Sprite.positions x y rows) false

/-- A whole position on the screen has its pixel. -/
theorem pixelIndex_int (x y : Int) :
    pixelIndex (.finite x) (.finite y) = some <$> index x y := by
  simp [pixelIndex, Number.toInt?_finite_int]

/-- From a whole origin a sprite is drawn as `draw` draws it. -/
theorem drawAt_int (s : Screen) (x y : Int) (rows : Sprite) :
    s.drawAt (.finite x) (.finite y) rows = s.draw x y rows := by
  simp [drawAt, Number.toInt?_finite_int]

end Screen

end Chip8
