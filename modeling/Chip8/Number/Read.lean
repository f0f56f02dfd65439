import Chip8.Number.Text
import Chip8.Text.Blank
/-!
# Reading numbers

Two readers. `ofWhole` takes a whole text as a number: blanks around it do not count, an empty text
is zero, and anything else that is no numeral is not a number. `ofLeadingInteger` takes the longest
decimal integer that starts the text and disregards what follows. Both give the double nearest to
what the digits say.
-/

namespace Chip8.Number

/-- The double nearest to `± digits · 10 ^ exponent`. A value that cannot be in range is decided by
its order of magnitude alone. -/
def ofDecimal (negative : Bool) (digits : Nat) (exponent : Int) : Number :=
  if digits = 0 then finite 0
  else
    let top : Int := exponent + (decimal digits).length
    if 310 < top then infinite negative
    else if top < -330 then finite 0
    else
      let magnitude := decimalScaled digits exponent
      binary64 (if negative then -magnitude else magnitude)

/-- The value of a digit in a base up to sixteen. -/
def digitIn? (base : Nat) (c : Char) : Option Nat :=
  let n := c.toNat
  let value :=
    if 48 ≤ n && n ≤ 57 then n - 48
    else if 65 ≤ n && n ≤ 70 then n - 55
    else if 97 ≤ n && n ≤ 102 then n - 87
    else base
  if value < base then some value else none

/-- Decimal digits. -/
def isDecimal (c : Char) : Bool := (digitIn? 10 c).isSome

/-- The number that digits of a base up to sixteen write. -/
def digitsValue (base : Nat) (cs : List Char) : Nat :=
  cs.foldl (fun n c => base * n + (digitIn? base c).getD 0) 0

/-- An optional sign: whether it is a minus, and what follows it. -/
def splitSign : List Char → Bool × List Char
  | '-' :: rest => (true, rest)
  | '+' :: rest => (false, rest)
  | rest => (false, rest)

/-- The longest decimal integer that starts a text, after blanks and an optional sign. -/
def ofLeadingInteger (cs : List Char) : Number :=
  let (negative, rest) := splitSign (cs.dropWhile Text.isBlank)
  match rest.takeWhile isDecimal with
  | [] => nan
  | digits => ofDecimal negative (digitsValue 10 digits) 0

/-- An exponent mark with its integer, or nothing at all. -/
def exponent? : List Char → Option Int
  | [] => some 0
  | mark :: rest =>
    if mark = 'e' || mark = 'E' then
      let (negative, digits) := splitSign rest
      if digits.isEmpty || !digits.all isDecimal then none
      else
        let n : Int := digitsValue 10 digits
        some (if negative then -n else n)
    else none

/-- An unsigned decimal numeral: digits with an optional point among them, at least one digit, and
an optional exponent. -/
def decimalNumeral (negative : Bool) (cs : List Char) : Number :=
  let whole := cs.takeWhile isDecimal
  let afterWhole := cs.dropWhile isDecimal
  let (fraction, rest) := match afterWhole with
    | '.' :: more => (more.takeWhile isDecimal, more.dropWhile isDecimal)
    | _ => ([], afterWhole)
  if whole.isEmpty && fraction.isEmpty then nan
  else match exponent? rest with
    | none => nan
    | some e => ofDecimal negative (digitsValue 10 (whole ++ fraction)) (e - fraction.length)

/-- An unsigned numeral in another base, after its mark. -/
def baseNumeral (base : Nat) (cs : List Char) : Number :=
  if cs.isEmpty || !cs.all (fun c => (digitIn? base c).isSome) then nan
  else ofDecimal false (digitsValue base cs) 0

/-- The number that a whole text is. -/
def ofWhole (s : String) : Number :=
  match Text.trimChars s.toList with
  | [] => finite 0
  | '0' :: 'x' :: rest => baseNumeral 16 rest
  | '0' :: 'X' :: rest => baseNumeral 16 rest
  | '0' :: 'o' :: rest => baseNumeral 8 rest
  | '0' :: 'O' :: rest => baseNumeral 8 rest
  | '0' :: 'b' :: rest => baseNumeral 2 rest
  | '0' :: 'B' :: rest => baseNumeral 2 rest
  | cs =>
    let (negative, rest) := splitSign cs
    if rest = "Infinity".toList then infinite negative else decimalNumeral negative rest

end Chip8.Number
