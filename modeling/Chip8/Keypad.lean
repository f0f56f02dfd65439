import Chip8.Digit
import Chip8.Fault
/-!
# The keypad

Sixteen keys. While a wait is armed, the first key that goes from up to down is latched, and the
latch is kept until it is taken, whatever happens to the keys in between.
-/

namespace Chip8

/-- Which keys are down, whether a wait is armed, and the key that the wait has caught. -/
structure Keypad where
  pressed : Vector Bool 16
  waiting : Bool
  latched : Option Key
deriving DecidableEq

namespace Keypad

/-- No key down and no wait. -/
def idle : Keypad := ⟨Vector.replicate 16 false, false, none⟩

/-- The key of an index, which has to be one of the first sixteen natural numbers. -/
def key (index : Number) : Except InputError Key :=
  match Digit.ofNumber? index with
  | some key => .ok key
  | none => .error (.noKey index)

/-- Whether a key is held. -/
def holds (k : Keypad) (key : Key) : Bool := k.pressed.get key

/-- A key goes down or up. An armed wait that has caught nothing yet catches a key that was up
before. -/
def press (k : Keypad) (key : Key) (down : Bool) : Keypad :=
  let caught := k.waiting && down && !k.holds key && k.latched.isNone
  { k with
    pressed := k.pressed.set key down
    latched := if caught then some key else k.latched }

/-- The key of an index goes down or up. -/
def setKey (k : Keypad) (index : Number) (down : Bool) : Keypad × Except InputError Unit :=
  match key index with
  | .error e => (k, .error e)
  | .ok key => (k.press key down, .ok ())

/-- Whether the key of an index is held. -/
def isDown (k : Keypad) (index : Number) : Except InputError Bool := do
  return k.holds (← key index)

/-- The set of keys that are down, key `n` being bit `n`. -/
def mask (k : Keypad) : Nat :=
  Fin.foldl 16 (fun m n => if k.holds n then m + Nat.pow 2 n.val else m) 0

/-- Starts a wait and forgets what an earlier one caught. -/
def arm (k : Keypad) : Keypad := { k with waiting := true, latched := none }

/-- Takes the key that the wait has caught, if any, and ends the wait. -/
def take (k : Keypad) : Option Key × Keypad :=
  match k.waiting, k.latched with
  | true, some key => (some key, { k with waiting := false, latched := none })
  | _, _ => (none, k)

/-- All keys go up; a wait and its latch stay. -/
def releaseAll (k : Keypad) : Keypad := { k with pressed := Vector.replicate 16 false }

end Keypad

end Chip8
