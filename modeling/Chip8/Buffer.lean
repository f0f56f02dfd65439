import Chip8.Fault
/-!
# Buffers

A buffer has as many elements as the whole part of the number that it is asked for with. A number
that is negative, or too large to be counted in bytes, is no length. A buffer of some length can be
had if there is memory for its bytes.
-/

namespace Chip8.Buffer

/-- The greatest number of bytes that can be asked for. -/
def byteLimit : Nat := 9007199254740991

/-- The number of elements of a buffer that is asked for with a number, an element taking some
bytes. -/
def length (elementBytes : Nat) (n : Number) : Except InputError Nat :=
  match n with
  | .nan => .ok 0
  | .infinite _ => .error (.bufferLength n)
  | .finite _ =>
    let count := n.truncated
    if count < 0 then .error (.bufferLength n)
    else
      if byteLimit < elementBytes * count.toNat then .error (.bufferLength n)
      else .ok count.toNat

/-- Takes some bytes of as much memory as there is. -/
def claim (memory bytes : Nat) : Except InputError Unit :=
  if memory < bytes then .error .bufferMemory else .ok ()

/-- Nothing negative is a length. -/
theorem length_eq_error_of_neg {elementBytes : Nat} {q : Rat}
    (h : (Number.finite q).truncated < 0) :
    length elementBytes (.finite q) = .error (.bufferLength (.finite q)) := by
  simp [length, h]

end Chip8.Buffer
