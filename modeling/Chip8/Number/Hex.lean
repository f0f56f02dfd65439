import Chip8.Number
import Chip8.Text.Hex
/-!
# Numbers in hexadecimal

A number in base sixteen with all of its digits: a double is a fraction over a power of two, so its
digits behind the point come to an end. A whole number has no point. Whatever is written is filled
with zeros on the left up to a width, sign, point and fraction counting towards the width.
-/

namespace Chip8.Number

/-- The digits behind the point of the fraction `num / den` below one, up to the last that is not
zero and at most as many as there are places. -/
def fractionDigits (num den : Nat) : (places : Nat) → List Char
  | 0 => []
  | places + 1 =>
    if num = 0 then []
    else Text.upperDigit (16 * num / den) :: fractionDigits (16 * num % den) den places

/-- The digits of a magnitude `num / den`, with a point among them unless it is whole. A denominator
below `2 ^ n` needs at most `n` places. -/
def digits16 (num den : Nat) : List Char :=
  let whole := Text.base16 Text.upperDigit (num / den)
  match fractionDigits (num % den) den (den.log2 + 1) with
  | [] => whole
  | fraction => whole ++ '.' :: fraction

/-- A number in upper-case hexadecimal, zeros filling it up to `width` places. -/
def hex (width : Nat) (n : Number) : String :=
  match n with
  | finite q =>
    if q.den = 1 then Text.hex width q.num
    else
      let digits := digits16 q.num.natAbs q.den
      String.ofList (Text.padLeft '0' width (if q < 0 then '-' :: digits else digits))
  | infinite negative =>
    String.ofList (Text.padLeft '0' width (if negative then "-INFINITY" else "INFINITY").toList)
  | nan => String.ofList (Text.padLeft '0' width "NAN".toList)

end Chip8.Number
