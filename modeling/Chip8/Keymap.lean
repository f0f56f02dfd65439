import Chip8.Digit
import Chip8.Fault
import Chip8.Number.Read
import Chip8.Text.Fields
/-!
# Keymaps

Which key of the keypad a key of the keyboard stands for. Keyboard keys go by the code of their
position, so the layout follows the place of a key and not the character on it. A list of entries
such as `KeyQ=4,KeyW=5` overrides a map; of several entries for a code the last one counts.
-/

namespace Chip8

/-- The codes with their keys, each code once, in the order in which they were first given. -/
structure Keymap where
  entries : List (String × Key)
deriving DecidableEq, Repr

namespace Keymap

/-- Four by four keys under the left hand. `KeyY` doubles `KeyZ` for keyboards that swap them. -/
def standard : Keymap where
  entries :=
    [("Digit1", .ofNat 0x1), ("Digit2", .ofNat 0x2), ("Digit3", .ofNat 0x3), ("Digit4", .ofNat 0xC),
     ("KeyQ", .ofNat 0x4), ("KeyW", .ofNat 0x5), ("KeyE", .ofNat 0x6), ("KeyR", .ofNat 0xD),
     ("KeyA", .ofNat 0x7), ("KeyS", .ofNat 0x8), ("KeyD", .ofNat 0x9), ("KeyF", .ofNat 0xE),
     ("KeyZ", .ofNat 0xA), ("KeyY", .ofNat 0xA), ("KeyX", .ofNat 0x0),
     ("KeyC", .ofNat 0xB), ("KeyV", .ofNat 0xF)]

/-- The key of a code, if it has one. -/
def get? (m : Keymap) (code : String) : Option Key := m.entries.lookup code

/-- Gives a code a key, in its old place if it had one. -/
def insertEntry (code : String) (key : Key) : List (String × Key) → List (String × Key)
  | [] => [(code, key)]
  | (c, k) :: rest => if c = code then (c, key) :: rest else (c, k) :: insertEntry code key rest

/-- Gives a code a key. -/
def insert (m : Keymap) (code : String) (key : Key) : Keymap :=
  ⟨insertEntry code key m.entries⟩

/-- The letters and digits of ASCII, of which codes are made. -/
def isCodeChar (c : Char) : Bool := c.isAlphanum

/-- The key that a hexadecimal digit names. -/
def keyOfDigit? (c : Char) : Option Key :=
  (Number.digitIn? 16 c).map Digit.ofNat

/-- Reads an entry: a code, an equals sign and one hexadecimal digit. -/
def assignment? (entry : List Char) : Option (String × Key) :=
  let code := entry.takeWhile isCodeChar
  match entry.dropWhile isCodeChar with
  | ['=', digit] =>
    if code.isEmpty then none else (keyOfDigit? digit).map fun key => (String.ofList code, key)
  | _ => none

/-- Overrides a map by entries in their order. Empty entries do not count. -/
def addEntries (m : Keymap) : List (List Char) → Except InputError Keymap
  | [] => .ok m
  | part :: rest =>
    let entry := Text.trimChars part
    if entry.isEmpty then m.addEntries rest
    else match assignment? entry with
      | some (code, key) => (m.insert code key).addEntries rest
      | none => .error (.keymapEntry (String.ofList entry))

/-- Overrides a map by a comma-separated list. -/
def override (m : Keymap) (list : String) : Except InputError Keymap :=
  m.addEntries (Text.fields ',' list.toList)

/-- Overrides a map by several lists in turn. -/
def overrideAll (m : Keymap) : List String → Except InputError Keymap
  | [] => .ok m
  | list :: rest => do (← m.override list).overrideAll rest

end Keymap

end Chip8
