import Chip8.Number
/-!
# Numbers in text

A double is written with the fewest decimal digits that read back as the same double, and of those
with the digits nearest to it. The digits stand positionally while the decimal point lies within
twenty-one places on the left and six zeros on the right, and with an exponent beyond.
-/

namespace Chip8.Number

/-- The decimal digits of a natural number. -/
def decimal (n : Nat) : List Char := Nat.toDigits 10 n

/-- A power of ten. -/
def tenTo (n : Nat) : Nat := Nat.pow 10 n

/-- The largest `p` with `10 ^ p ≤ num / den`, for positive `num` and `den`, searched downwards from
an exponent that is at most one decade too high. -/
def floorLog10 (num den : Nat) : Int :=
  let high : Int := ((decimal num).length : Int) - (decimal den).length
  if den * tenTo high.toNat ≤ num * tenTo (-high).toNat then high else high - 1

/-- The rational `d · 10 ^ e`. -/
def decimalScaled (d : Nat) (e : Int) : Rat :=
  mkRat (d * tenTo e.toNat) (tenTo (-e).toNat)

/-- Of the two neighbours of `q` on the grid of multiples of `10 ^ e`, the one that reads back as
`q`; of two such the nearer, and of two equally near the even one. -/
def onGrid? (q : Rat) (e : Int) : Option Nat :=
  let below := (mkRat (q.num.natAbs * tenTo (-e).toNat) (q.den * tenTo e.toNat)).floor.toNat
  let low := binary64 (decimalScaled below e) = finite q
  let high := binary64 (decimalScaled (below + 1) e) = finite q
  if low && high then
    let toLow := q - decimalScaled below e
    let toHigh := decimalScaled (below + 1) e - q
    some (if toLow < toHigh || (toLow = toHigh && below % 2 = 0) then below else below + 1)
  else if low then some below
  else if high then some (below + 1)
  else none

/-- The shortest decimal of a positive double whose leading digit stands for `10 ^ top`: it tries
the grids of `places`, `places + 1`, … digits in turn. -/
def shortestFrom (q : Rat) (top : Int) : (fuel places : Nat) → Nat × Int
  | 0, places => ((onGrid? q (top + 1 - places)).getD 0, top + 1 - places)
  | fuel + 1, places =>
    match onGrid? q (top + 1 - places) with
    | some d => (d, top + 1 - places)
    | none => shortestFrom q top fuel (places + 1)

/-- The shortest decimal `d · 10 ^ e` that reads back as a positive double. Seventeen digits are
always enough. -/
def shortest (q : Rat) : Nat × Int :=
  shortestFrom q (floorLog10 q.num.natAbs q.den) 16 1

/-- Digits without the zeros at their end, and how many zeros that were. -/
def dropZeros (digits : List Char) : List Char × Nat :=
  let kept := (digits.reverse.dropWhile (· = '0')).reverse
  (kept, digits.length - kept.length)

/-- Lays out digits of which `point` stand before the decimal point. -/
def layOut (digits : List Char) (point : Int) : List Char :=
  let k := digits.length
  if (k : Int) ≤ point ∧ point ≤ 21 then digits ++ List.replicate (point - k).toNat '0'
  else if 0 < point ∧ point ≤ 21 then
    digits.take point.toNat ++ '.' :: digits.drop point.toNat
  else if -6 < point ∧ point ≤ 0 then
    '0' :: '.' :: (List.replicate (-point).toNat '0' ++ digits)
  else
    let e := point - 1
    let mantissa := match digits with
      | [] => []
      | [d] => [d]
      | d :: ds => d :: '.' :: ds
    mantissa ++ 'e' :: (if e < 0 then '-' else '+') :: decimal e.natAbs

/-- The text of a positive double. -/
def positiveText (q : Rat) : List Char :=
  let (d, e) := shortest q
  let (digits, zeros) := dropZeros (decimal d)
  layOut digits (digits.length + zeros + e)

/-- The text of a number. -/
def text : Number → String
  | nan => "NaN"
  | infinite negative => if negative then "-Infinity" else "Infinity"
  | finite q =>
    if q = 0 then "0"
    else if q < 0 then String.ofList ('-' :: positiveText (-q))
    else String.ofList (positiveText q)

/-- The text of an integer, which beyond double precision is that of the nearest double. -/
def intText (n : Int) : String := (ofInt n).text

/-- A number with two decimal places, a tie going away from zero; from `10 ^ 21` on it is written
as `text` does. -/
def twoPlaces : Number → String
  | finite q =>
    let size := if q < 0 then -q else q
    if (tenTo 21 : Rat) ≤ size then text (finite q)
    else
      let n := (roundHalfUp (size * 100)).toNat
      let digits := decimal n
      let filled := List.replicate (3 - digits.length) '0' ++ digits
      let whole := filled.take (filled.length - 2) ++ '.' :: filled.drop (filled.length - 2)
      String.ofList (if q < 0 then '-' :: whole else whole)
  | other => text other

end Chip8.Number
