/-!
# Hexadecimal text

Numbers written in base sixteen. A number is written with as few digits as possible and then filled
with zeros on the left up to a width; a negative number is a minus sign and its magnitude, and the
sign counts towards the width.
-/

namespace Chip8.Text

/-- The digit of a number below sixteen, letters in upper case. -/
def upperDigit (n : Nat) : Char :=
  if n < 10 then Char.ofNat (48 + n) else Char.ofNat (55 + n)

/-- The digit of a number below sixteen, letters in lower case. -/
def lowerDigit (n : Nat) : Char :=
  if n < 10 then Char.ofNat (48 + n) else Char.ofNat (87 + n)

/-- The base-sixteen digits of a number, most significant first and never empty. -/
def base16 (digit : Nat → Char) (n : Nat) : List Char :=
  if n < 16 then [digit n] else base16 digit (n / 16) ++ [digit (n % 16)]
termination_by n

/-- Fills a text on the left with a character until it has the given length. -/
def padLeft (fill : Char) (width : Nat) (text : List Char) : List Char :=
  List.replicate (width - text.length) fill ++ text

/-- The digits of an integer, with a minus sign in front of a negative one. -/
def signed16 (digit : Nat → Char) : Int → List Char
  | .ofNat n => base16 digit n
  | .negSucc n => '-' :: base16 digit (n + 1)

/-- An integer in upper-case hexadecimal, zeros filling it up to `width` places. -/
def hex (width : Nat) (n : Int) : String :=
  String.ofList (padLeft '0' width (signed16 upperDigit n))

/-- A natural number in lower-case hexadecimal, zeros filling it up to `width` places. -/
def hexLower (width n : Nat) : String :=
  String.ofList (padLeft '0' width (base16 lowerDigit n))

/-- Padding never shortens, and reaches the width. -/
theorem length_padLeft (fill : Char) (width : Nat) (text : List Char) :
    (padLeft fill width text).length = max width text.length := by
  simp only [padLeft, List.length_append, List.length_replicate]
  omega

end Chip8.Text
