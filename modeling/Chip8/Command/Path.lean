import Chip8.Text.Fields
/-!
# Paths

Absolute paths of a file system whose separator is the slash, as lists of names from the root. A
relative path starts from the current directory; a dot and an empty name stand for nothing, and two
dots for the directory above, which at the root is the root.
-/

namespace Chip8

/-- The names on the way from the root. -/
structure Path where
  names : List String
deriving DecidableEq, Repr

namespace Path

/-- Follows one name from a place given with its last name first. -/
def follow (place : List String) (name : String) : List String :=
  if name = "" || name = "." then place
  else if name = ".." then place.tail
  else name :: place

/-- The names between the slashes of a text. -/
def split (text : String) : List String := (Text.fields '/' text.toList).map String.ofList

/-- Whether a text starts at the root. -/
def isAbsolute (text : String) : Bool := text.toList.head? = some '/'

/-- The place that a text names, seen from a directory. -/
def resolve (cwd : Path) (text : String) : Path :=
  let start := if isAbsolute text then [] else cwd.names.reverse
  ⟨((split text).foldl follow start).reverse⟩

/-- The text of a path. -/
def text (p : Path) : String := "/" ++ String.intercalate "/" p.names

/-- Whether a name on the way holds the NUL character. -/
def hasNul (p : Path) : Bool := p.names.any fun name => name.toList.contains '\x00'

/-- The directory that a path lies in. -/
def parent (p : Path) : Path := ⟨p.names.dropLast⟩

/-- The last name in a text, slashes behind it disregarded. -/
def lastName (text : String) : String := ((split text).filter (· ≠ "")).getLast?.getD ""

/-- A file name without the ending behind its last dot, which has to have a character. -/
def dropExtension (name : String) : String :=
  let reversed := name.toList.reverse
  match reversed.takeWhile (· ≠ '.'), reversed.dropWhile (· ≠ '.') with
  | _ :: _, _ :: rest => String.ofList rest.reverse
  | _, _ => name

end Path

end Chip8
