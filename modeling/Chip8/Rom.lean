import Chip8.Fault
/-!
# Program images

A program is at most 3584 bytes, what the memory holds from `$200` to its end.
-/

namespace Chip8

/-- The number of bytes that fit between the start of programs and the end of memory. -/
def Rom.maxSize : Nat := 3584

/-- A program image that fits into memory. -/
structure Rom where
  bytes : List UInt8
  length_le : bytes.length ≤ Rom.maxSize

namespace Rom

/-- The program of no bytes. -/
def empty : Rom := ⟨[], Nat.zero_le _⟩

/-- Admits bytes as a program unless there are too many. -/
def ofBytes (bytes : List UInt8) : Except RomError Rom :=
  if h : bytes.length ≤ maxSize then .ok ⟨bytes, h⟩ else .error (.tooLarge bytes.length)

/-- Some bytes are a program if and only if they fit, and then they are its bytes. -/
theorem ofBytes_eq_ok_iff {bytes : List UInt8} {rom : Rom} :
    ofBytes bytes = .ok rom ↔ rom.bytes = bytes := by
  unfold ofBytes
  constructor
  · intro h
    split at h
    · cases h; rfl
    · cases h
  · rintro rfl
    rw [dif_pos rom.length_le]

end Rom

end Chip8
