import Chip8.Text.Hex
/-!
# CRC-32

The cyclic redundancy check of IEEE 802.3, least significant bit first, with the reflected
polynomial `0xEDB88320`. The register is advanced a byte at a time through a table of the 256
possible low octets; `shift` is the step for a single bit that the table is made of.
-/

namespace Chip8.Crc32

/-- The generator polynomial with its bits reflected and the leading one left out. -/
def polynomial : UInt32 := 0xEDB88320

/-- The register after one zero bit. -/
def shift (register : UInt32) : UInt32 :=
  if register % 2 = 1 then polynomial ^^^ (register >>> 1) else register >>> 1

/-- The register after `n` zero bits. -/
def shifts : Nat → UInt32 → UInt32
  | 0, register => register
  | n + 1, register => shifts n (shift register)

/-- What each low octet contributes once it has been shifted out. -/
def table : Vector UInt32 256 := Vector.ofFn fun octet => shifts 8 (UInt32.ofNat octet)

/-- The register after one byte. -/
def step (register : UInt32) (byte : UInt8) : UInt32 :=
  let octet := (register ^^^ byte.toUInt32).toNat % 256
  (register >>> 8) ^^^ table.get ⟨octet, Nat.mod_lt _ (by decide)⟩

/-- The check value of a sequence of bytes. -/
def checksum (bytes : List UInt8) : UInt32 :=
  ~~~ bytes.foldl step 0xFFFFFFFF

/-- The check value in eight hexadecimal digits. -/
def checksumHex (bytes : List UInt8) : String :=
  Text.hexLower 8 (checksum bytes).toNat

/-- The check value of packed bytes. -/
def checksumPacked (bytes : ByteArray) : UInt32 :=
  ~~~ bytes.foldl step 0xFFFFFFFF

/-- The register after one element of a sequence of integers. The register is a signed word here,
and is shifted as an unsigned one. -/
def stepInteger (register : Int32) (element : Int) : Int32 :=
  let octet := (register ^^^ Int32.ofInt element) &&& 0xFF
  (register.toUInt32 >>> 8).toInt32 ^^^ (table[octet.toUInt32.toNat]?.getD 0).toInt32

/-- The check value of a sequence of integers. -/
def checksumIntegers (elements : List Int) : Nat :=
  (~~~ elements.foldl stepInteger (-1)).toUInt32.toNat

end Chip8.Crc32
