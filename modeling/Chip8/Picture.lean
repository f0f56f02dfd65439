import Chip8.Buffer
import Chip8.Crc32
import Chip8.Screen
/-!
# Pictures of the screen

The screen enlarged by a whole factor, four bytes a pixel for red, green, blue and opacity. Sizes
and the places of pixels in the data are reduced to signed thirty-two bits; what falls outside the
data is dropped, and a picture that is left without an area cannot be painted. A picture is stored
as a PNG file of eight bits a channel, its data in stored blocks without compression.
-/

namespace Chip8

/-- A colour. -/
structure Colour where
  red : UInt8
  green : UInt8
  blue : UInt8
deriving DecidableEq, Repr

namespace Colour

/-- White, for pixels that are on. -/
def white : Colour := ⟨255, 255, 255⟩

/-- Black, for pixels that are off. -/
def black : Colour := ⟨0, 0, 0⟩

end Colour

/-- An image: its size and its data, four bytes a pixel, row by row. -/
structure Picture where
  width : Nat
  height : Nat
  data : ByteArray

namespace Picture

/-- The factor that a number asks for: the greatest integer that is not above it, and at least
one. No factor is infinite. -/
def factor? : Number → Option Nat
  | .finite q => some (max 1 q.floor).toNat
  | .infinite negative => if negative then some 1 else none
  | .nan => none

/-- A natural number reduced to signed thirty-two bits, as far as that is not negative. -/
def signed32? (n : Nat) : Option Nat :=
  let low := n % 4294967296
  if low < 2147483648 then some low else none

/-- Where the data of the pixel at a position starts. -/
def offset? (position : Nat) : Option Nat := signed32? (4 * position)

/-- Data in which every byte is zero. -/
def zeros (size : Nat) : ByteArray :=
  size.fold (fun _ _ data => data.push 0) (ByteArray.emptyWithCapacity size)

/-- Stores a byte of the data; outside the data nothing happens. -/
def store (data : ByteArray) (k : Nat) (value : UInt8) : ByteArray :=
  if h : k < data.size then data.set k value h else data

/-- Paints the pixel at a position of the data, opaque. -/
def paint (data : ByteArray) (position : Nat) (c : Colour) : ByteArray :=
  match offset? position with
  | some k => store (store (store (store data k c.red) (k + 1) c.green) (k + 2) c.blue) (k + 3) 255
  | none => data

/-- Paints the square of a screen pixel. -/
def paintCell (scale x y : Nat) (c : Colour) (data : ByteArray) : ByteArray :=
  scale.fold (fun dy _ data =>
    scale.fold (fun dx _ data =>
      let row := (y * scale + dy) * (Screen.width * scale)
      paint data (row + (x * scale + dx)) c) data) data

/-- Paints all pixels of a screen. -/
def paintScreen (s : Screen) (scale : Nat) (on off : Colour) (data : ByteArray) : ByteArray :=
  (List.range Screen.height).foldl (fun data y =>
    (List.range Screen.width).foldl (fun data x =>
      let lit := s.pixels.toArray.getD (y * Screen.width + x) false
      paintCell scale x y (if lit then on else off) data) data) data

/-- An extent of the screen enlarged by a factor. -/
def enlarged (extent scale : Nat) : Nat := (signed32? (extent * scale)).getD 0

/-- How many bytes the data of a picture with a factor has. -/
def dataSize (scale : Nat) : Nat :=
  4 * enlarged Screen.width scale * enlarged Screen.height scale

/-- The screen enlarged by a factor, in two colours. -/
def ofScreen (s : Screen) (scale : Nat) (on off : Colour) : Picture where
  width := enlarged Screen.width scale
  height := enlarged Screen.height scale
  data := paintScreen s scale on off (zeros (dataSize scale))

/-- Why the screen cannot be enlarged by a factor, if so. -/
def refusal (scale : Nat) : Option Error :=
  let bytes := dataSize scale
  if bytes = 0 then some .noSurface
  else if Buffer.byteLimit < bytes then some (.system .fieldOutOfRange)
  else none

/-- The factor that a number asks for, unless the screen cannot be enlarged by it. -/
def factor (scale : Number) : Except Error Nat :=
  match factor? scale with
  | none => .error .noSurface
  | some n =>
    match refusal n with
    | some e => .error e
    | none => .ok n

/-- The screen enlarged by what a number asks for, in two colours. -/
def make (s : Screen) (scale : Number) (on off : Colour) : Except Error Picture := do
  return ofScreen s (← factor scale) on off

/-- The enlarged screen, if there is memory for it. -/
def makeWithin (memory : Nat) (s : Screen) (scale : Number) (on off : Colour) :
    Except Error Picture := do
  let n ← factor scale
  (Buffer.claim memory (dataSize n)).mapError Error.range
  return ofScreen s n on off

/-- The byte of a channel of the pixel in a column and a row, if the data reaches that far. -/
def channel? (p : Picture) (x y : Int) (channel : Nat) : Option UInt8 :=
  let start := 4 * (y * p.width + x)
  if start < 0 then none else p.data[start.toNat + channel]?

/-- A natural number in four bytes, high byte first. -/
def bytes32 (n : Nat) : List UInt8 :=
  [UInt8.ofNat (n / 16777216), UInt8.ofNat (n / 65536), UInt8.ofNat (n / 256), UInt8.ofNat n]

/-- A chunk of the file: its length, its four-letter name, its contents and their check value. -/
def chunk (name : String) (contents : List UInt8) : List UInt8 :=
  let body := (name.toList.map fun c => UInt8.ofNat c.toNat) ++ contents
  bytes32 contents.length ++ body ++ bytes32 (Crc32.checksum body).toNat

/-- The eight bytes that every file starts with. -/
def signature : List UInt8 := [0x89, 0x50, 0x4E, 0x47, 0x0D, 0x0A, 0x1A, 0x0A]

/-- The signature and the header chunk. -/
def head (p : Picture) : List UInt8 :=
  signature ++ chunk "IHDR" (bytes32 p.width ++ bytes32 p.height ++ [8, 6, 0, 0, 0])

/-- The rows of the data, each behind a byte that says it is not filtered. -/
def scanlines (p : Picture) : List UInt8 :=
  (List.range p.height).flatMap fun y =>
    0 :: (p.data.extract (4 * p.width * y) (4 * p.width * (y + 1))).data.toList

/-- The two sums of the Adler check value. -/
def adler (bytes : List UInt8) : Nat :=
  let (a, b) := bytes.foldl (fun (a, b) v =>
    let a := (a + v.toNat) % 65521
    (a, (b + a) % 65521)) (1, 0)
  b * 65536 + a

/-- Bytes as stored blocks of at most 65535 bytes, the last one marked. -/
def storedBlocks (bytes : List UInt8) : List UInt8 :=
  let size := bytes.length
  let blocks := max 1 ((size + 65534) / 65535)
  let store := bytes.toArray
  (List.range blocks).flatMap fun k =>
    let part := (store.extract (65535 * k) (65535 * (k + 1))).toList
    let n := part.length
    let complement := 65535 - n
    (if k + 1 = blocks then 1 else 0) ::
      UInt8.ofNat n :: UInt8.ofNat (n / 256) ::
      UInt8.ofNat complement :: UInt8.ofNat (complement / 256) :: part

/-- The whole file. -/
def encode (p : Picture) : List UInt8 :=
  let lines := p.scanlines
  p.head ++ chunk "IDAT" (0x78 :: 0x01 :: (storedBlocks lines ++ bytes32 (adler lines))) ++
    chunk "IEND" []

end Picture

end Chip8
