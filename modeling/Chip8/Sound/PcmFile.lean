import Chip8.Fault
/-!
# Sound files

Sound as a RIFF file of one channel with sixteen bits a sample. A sample of one is the level 32767;
what lies beyond one is clamped, a tie between two levels goes up, and a sample that is not a
number is silence. A header field holds the whole part of its number and refuses a number that does
not fit.
-/

namespace Chip8.PcmFile

/-- The low sixteen bits of an integer, low byte first. -/
def bytes16 (n : Int) : List UInt8 :=
  let v := (n % 65536).toNat
  [UInt8.ofNat v, UInt8.ofNat (v / 256)]

/-- The low thirty-two bits of a natural number, low byte first. -/
def bytes32 (n : Nat) : List UInt8 :=
  [UInt8.ofNat n, UInt8.ofNat (n / 256), UInt8.ofNat (n / 65536), UInt8.ofNat (n / 16777216)]

/-- A header field of thirty-two bits. Not a number is written as zero. -/
def field : Number → Except SystemError (List UInt8)
  | .nan => .ok (bytes32 0)
  | .infinite _ => .error .fieldOutOfRange
  | .finite q =>
    if q < 0 ∨ 4294967295 < q then .error .fieldOutOfRange else .ok (bytes32 q.floor.toNat)

/-- A rational no further from zero than one. -/
def clamp (q : Rat) : Rat := if q < -1 then -1 else if 1 < q then 1 else q

/-- The level of a sample. -/
def level : Number → Int
  | .nan => 0
  | .infinite negative => if negative then -32767 else 32767
  | .finite q => Number.roundHalfUp (clamp q * 32767)

/-- A four-letter mark. -/
def mark (s : String) : List UInt8 := s.toList.map fun c => UInt8.ofNat c.toNat

/-- The file for samples at a rate per second. -/
def encode (samples : List Number) (rate : Number) : Except SystemError (List UInt8) := do
  let dataSize := 2 * samples.length
  let riffSize ← field (.finite (36 + dataSize : Nat))
  let rateField ← field rate
  let byteRate ← field (rate.mul .finite (.finite 2))
  let dataField ← field (.finite (dataSize : Nat))
  return mark "RIFF" ++ riffSize ++ mark "WAVE" ++
    mark "fmt " ++ bytes32 16 ++ bytes16 1 ++ bytes16 1 ++ rateField ++ byteRate ++
      bytes16 2 ++ bytes16 16 ++
    mark "data" ++ dataField ++ samples.flatMap fun s => bytes16 (level s)

end Chip8.PcmFile
