import Chip8.Number
/-!
# Samples

A sample of a sound is a single-precision number, kept as its bits. So zero has two samples, which
differ in their sign, and turning a sample over is the same for every one of them: the sign bit
changes and all others stay. Main statement: a sample turned over twice is the sample again.
-/

namespace Chip8

/-- The bits of a single-precision number. -/
structure Sample where
  bits : UInt32
deriving DecidableEq, Repr, Inhabited

namespace Sample

/-- The sample of silence. -/
def silence : Sample := ⟨0⟩

/-- The sample of the same size and the other sign. -/
def negate (s : Sample) : Sample := ⟨s.bits ^^^ 0x80000000⟩

/-- The sample nearest to a double. Zero keeps its sign. -/
def ofFloat (x : Float) : Sample :=
  if x.toBits = 0x8000000000000000 then silence.negate
  else ⟨UInt32.ofNat ((Number.ofFloat x).toBits 8 23)⟩

/-- The number that a sample stands for. -/
def number (s : Sample) : Number := Number.ofBits 8 23 s.bits.toNat

/-- A sample turned over twice is the sample again. -/
theorem negate_negate (s : Sample) : s.negate.negate = s := by
  cases s
  rw [negate, negate, UInt32.xor_assoc, UInt32.xor_self, UInt32.xor_zero]

end Sample

end Chip8
