import Chip8.Number
/-!
# Random bytes

A random source is a stream of bytes together with how many of them have been drawn. The position
in the stream is part of the state, so that a run is determined by what it starts from.
-/

namespace Chip8

/-- A stream of random bytes and how many of them have been drawn. -/
structure RandomSource where
  bytes : Nat → UInt8
  drawn : Nat

namespace RandomSource

/-- The next byte, and the source that is left. -/
def next (r : RandomSource) : UInt8 × RandomSource :=
  (r.bytes r.drawn, { r with drawn := r.drawn + 1 })

/-- The stream that repeats some bytes over and over; without any it is zero throughout. -/
def cycle (bytes : List UInt8) : RandomSource :=
  let store := bytes.toArray
  ⟨fun k => store.getD (k % store.size) 0, 0⟩

end RandomSource

/-- The byte that a uniform number between zero and one stands for. -/
def randomByte : Number → UInt8
  | .finite q => UInt8.ofInt (q * 256).floor
  | _ => 0

end Chip8
