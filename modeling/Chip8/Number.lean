/-!
# Numbers

Numbers as the settings, the sound files and the messages use them: not a number, an infinity, or
an exact rational. Arithmetic takes the rounding of an exact result as an argument, so that one
definition serves both double precision (`binary64`) and exact computation (`Number.finite`).
Zero carries no sign.
-/

namespace Chip8

/-- Not a number, an infinity, or a rational. -/
inductive Number where
  | nan
  | infinite (negative : Bool)
  | finite (value : Rat)
deriving DecidableEq, Repr, Inhabited

namespace Number

/-- Powers of two. -/
def twoTo (n : Nat) : Nat := Nat.pow 2 n

/-- The natural number nearest to a quotient, a tie going to the even one. -/
def divHalfEven (num den : Nat) : Nat :=
  let q := num / den
  let r := num % den
  if 2 * r < den || (2 * r = den && q % 2 = 0) then q else q + 1

/-- The largest `e` with `2 ^ e ≤ num / den`, for positive `num` and `den`. -/
def floorLog2 (num den : Nat) : Int :=
  let e : Int := (Nat.log2 num : Int) - Nat.log2 den
  if den * twoTo e.toNat ≤ num * twoTo (-e).toNat then e else e - 1

/-- A positive magnitude rounded to some bits behind the first one, or to a multiple of a least
power of two: the multiple and the exponent of two that scales it. -/
def roundTo (places least : Int) (num den : Nat) : Nat × Int :=
  let scale := max (floorLog2 num den - places) least
  (divHalfEven (num * twoTo (-scale).toNat) (den * twoTo scale.toNat), scale)

/-- A positive magnitude rounded to 53 significant bits, or to a multiple of the least positive
double. -/
def roundMagnitude (num den : Nat) : Nat × Int := roundTo 52 (-1074) num den

/-- The rational `m · 2 ^ e`. -/
def scaled (m : Nat) (e : Int) : Rat :=
  mkRat (m * twoTo e.toNat) (twoTo (-e).toNat)

/-- The double nearest to a rational: ties go to the even mantissa, and what reaches `2 ^ 1024`
becomes infinite. -/
def binary64 (q : Rat) : Number :=
  if q = 0 then finite 0
  else
    let (m, e) := roundMagnitude q.num.natAbs q.den
    if twoTo 1024 ≤ m * twoTo e.toNat / twoTo (-e).toNat then infinite (q < 0)
    else finite (if q < 0 then -scaled m e else scaled m e)

/-- The double nearest to an integer. -/
def ofInt (n : Int) : Number := binary64 n

/-- The exponent of two of the least positive number in a format, which has some bits for exponents
and some for the fractions that follow the first bit. -/
def leastExponent (exponentBits fractionBits : Nat) : Int :=
  2 - (twoTo (exponentBits - 1) : Nat) - fractionBits

/-- The number that the bits of a format stand for. -/
def ofBits (exponentBits fractionBits bits : Nat) : Number :=
  let negative := bits / twoTo (exponentBits + fractionBits) = 1
  let exponent := bits / twoTo fractionBits % twoTo exponentBits
  let fraction := bits % twoTo fractionBits
  let least := leastExponent exponentBits fractionBits
  if exponent = twoTo exponentBits - 1 then
    if fraction = 0 then infinite negative else nan
  else
    let magnitude :=
      if exponent = 0 then scaled fraction least
      else scaled (twoTo fractionBits + fraction) (exponent + least - 1)
    finite (if negative then -magnitude else magnitude)

/-- The bits of the number nearest to a number in a format; zero becomes positive zero. -/
def toBits (exponentBits fractionBits : Nat) (n : Number) : Nat :=
  let sign (negative : Bool) : Nat := if negative then twoTo (exponentBits + fractionBits) else 0
  let top := (twoTo exponentBits - 1) * twoTo fractionBits
  match n with
  | nan => top + twoTo (fractionBits - 1)
  | infinite negative => sign negative + top
  | finite q =>
    let least := leastExponent exponentBits fractionBits
    let (m, e) := roundTo fractionBits least q.num.natAbs q.den
    sign (q < 0) +
      if m < twoTo fractionBits then m
      else min top ((e - least).toNat * twoTo fractionBits + m)

/-- The number that a double stands for. -/
def ofFloat (x : Float) : Number := ofBits 11 52 x.toBits.toNat

/-- The double nearest to a number; zero becomes positive zero. -/
def toFloat (n : Number) : Float := Float.ofBits (UInt64.ofNat (n.toBits 11 52))

/-- The sum, an exact result being rounded. -/
def add (round : Rat → Number) : Number → Number → Number
  | finite a, finite b => round (a + b)
  | nan, _ => nan
  | _, nan => nan
  | infinite s, infinite t => if s = t then infinite s else nan
  | infinite s, finite _ => infinite s
  | finite _, infinite t => infinite t

/-- The number of the same size and the other sign. -/
def negate : Number → Number
  | nan => nan
  | infinite negative => infinite (!negative)
  | finite q => finite (-q)

/-- The product, an exact result being rounded. -/
def mul (round : Rat → Number) : Number → Number → Number
  | finite a, finite b => round (a * b)
  | nan, _ => nan
  | _, nan => nan
  | infinite s, infinite t => infinite (s != t)
  | infinite s, finite b => if b = 0 then nan else infinite (s != decide (b < 0))
  | finite a, infinite t => if a = 0 then nan else infinite (decide (a < 0) != t)

/-- The quotient, an exact result being rounded; a zero divisor counts as positive. -/
def div (round : Rat → Number) : Number → Number → Number
  | finite a, finite b =>
    if b ≠ 0 then round (a / b) else if a = 0 then nan else infinite (a < 0)
  | nan, _ => nan
  | _, nan => nan
  | infinite _, infinite _ => nan
  | infinite s, finite b => infinite (s != decide (b < 0))
  | finite _, infinite _ => finite 0

/-- The larger of a rational and a number, where not a number stays what it is. -/
def atLeast (bound : Rat) : Number → Number
  | nan => nan
  | infinite negative => if negative then finite bound else infinite false
  | finite q => finite (if q < bound then bound else q)

/-- Whether a number is less than a rational; not a number never is. -/
def isBelow (bound : Rat) : Number → Bool
  | nan => false
  | infinite negative => negative
  | finite q => q < bound

/-- Whether a number is greater than a rational; not a number never is. -/
def isAbove (bound : Rat) : Number → Bool
  | nan => false
  | infinite negative => !negative
  | finite q => bound < q

/-- The integer nearest to a rational, a tie going up. -/
def roundHalfUp (q : Rat) : Int := (q + 1 / 2).floor

/-- The least integer that is not below a number, where the number has one. -/
def roundedUp : Number → Number
  | finite q => finite q.ceil
  | other => other

/-- The integer that a number is, if it is one. -/
def toInt? : Number → Option Int
  | finite q => if q.den = 1 then some q.num else none
  | _ => none

/-- The natural number that a number is, if it is one. -/
def toNat? (n : Number) : Option Nat :=
  match n.toInt? with
  | some k => if 0 ≤ k then some k.toNat else none
  | none => none

/-- The integer part of a number, a fraction being cut off; zero for what is not finite. -/
def truncated : Number → Int
  | finite q => if q < 0 then q.ceil else q.floor
  | _ => 0

/-- What a number exceeds the multiples of a positive integer by, the multiples being counted from
zero towards the number, so that the remainder has its sign. -/
def remainder (modulus : Nat) : Number → Number
  | finite q => finite (q - modulus * (finite (q / modulus)).truncated)
  | _ => nan

/-- The integer of an integral double is that integer. -/
theorem toInt?_finite_int (n : Int) : (finite n).toInt? = some n := by
  simp [toInt?]

end Number

end Chip8
