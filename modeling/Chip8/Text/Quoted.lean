import Chip8.Text.Hex
/-!
# Quoted text

A text between double quotes as data formats write it: a quote and a backslash take a backslash in
front, the five common control characters have a letter, and the other control characters are
written by their number in four hexadecimal digits.
-/

namespace Chip8.Text

/-- How one character stands inside quotes. -/
def escape (c : Char) : List Char :=
  if c = '"' then ['\\', '"']
  else if c = '\\' then ['\\', '\\']
  else if c.toNat = 8 then ['\\', 'b']
  else if c.toNat = 9 then ['\\', 't']
  else if c.toNat = 10 then ['\\', 'n']
  else if c.toNat = 12 then ['\\', 'f']
  else if c.toNat = 13 then ['\\', 'r']
  else if c.toNat < 32 then '\\' :: 'u' :: padLeft '0' 4 (base16 lowerDigit c.toNat)
  else [c]

/-- A text between double quotes. -/
def quoted (s : String) : String :=
  String.ofList ('"' :: (s.toList.flatMap escape ++ ['"']))

end Chip8.Text
