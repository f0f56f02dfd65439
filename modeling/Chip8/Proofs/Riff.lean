import Chip8.Proofs.Octets
import Chip8.Sound.PcmFile
import Mathlib.Algebra.Order.Round
import Mathlib.Data.Rat.Floor
import Mathlib.Tactic.Linarith
/-!
# Sound files read back

A RIFF file is a chunk of chunks, each with a mark and its size. `Riff.read?` is a reader that knows
nothing of how files are written: it splits bytes into chunks, looks up the format and the samples
by their marks, and takes no other format than one channel of sixteen bits. Chunks are read back as
they were written (`Riff.readChunks?_bytes`), and so are levels that fit
(`Riff.readLevels?_bytes16`). The level of a sample is the nearest to it, a tie going up, and no
other integer is (`PcmFile.quantizes_iff`). The main result is `PcmFile.read_encode`.
-/

namespace Chip8

namespace Riff

/-- A part of a file, with the four bytes that say what it is. -/
structure Chunk where
  mark : List UInt8
  contents : List UInt8

/-- The first bytes, as many as are asked for, and what follows them. -/
def take? (n : Nat) (bytes : List UInt8) : Option (List UInt8 × List UInt8) :=
  if n ≤ bytes.length then some (bytes.take n, bytes.drop n) else none

/-- Bytes are taken off in front of others. -/
lemma take?_append {n : Nat} {bytes : List UInt8} (length : bytes.length = n) (rest : List UInt8) :
    take? n (bytes ++ rest) = some (bytes, rest) := by
  have enough : n ≤ (bytes ++ rest).length := by
    rw [List.length_append, length]
    exact Nat.le_add_right _ _
  rw [take?, if_pos enough, List.take_left' length, List.drop_left' length]

/-- What is left is shorter by what was taken. -/
lemma length_of_take? {n : Nat} {bytes front rest : List UInt8}
    (taken : take? n bytes = some (front, rest)) : rest.length + n = bytes.length := by
  rw [take?] at taken
  split at taken
  · cases taken
    rw [List.length_drop]
    omega
  · cases taken

/-- The chunk that bytes begin with, and what follows it. Behind the mark stands the size of the
contents. They are filled up to an even size. -/
def readChunk? (bytes : List UInt8) : Option (Chunk × List UInt8) := do
  let (mark, bytes) ← take? 4 bytes
  let (size, bytes) ← take? 4 bytes
  let (contents, bytes) ← take? (Octets.value size) bytes
  let (_, bytes) ← take? (Octets.value size % 2) bytes
  return (⟨mark, contents⟩, bytes)

/-- Reading a chunk uses up some bytes. -/
lemma length_lt_of_readChunk? {bytes rest : List UInt8} {chunk : Chunk}
    (read : readChunk? bytes = some (chunk, rest)) : rest.length < bytes.length := by
  simp only [readChunk?, Option.bind_eq_bind, Option.bind_eq_some_iff, Prod.exists] at read
  obtain ⟨mark, _, first, size, _, second, contents, _, third, pad, _, fourth, last⟩ := read
  cases last
  have := length_of_take? first
  have := length_of_take? second
  have := length_of_take? third
  have := length_of_take? fourth
  omega

/-- The chunks that bytes consist of. -/
def readChunks? (bytes : List UInt8) : Option (List Chunk) :=
  if bytes = [] then some []
  else
    match read : readChunk? bytes with
    | none => none
    | some (chunk, rest) =>
      have := length_lt_of_readChunk? read
      (chunk :: ·) <$> readChunks? rest
termination_by bytes.length

/-- The integers of sixteen bits with a sign that bytes consist of. -/
def readLevels? : List UInt8 → Option (List Int)
  | [] => some []
  | [_] => none
  | low :: high :: rest => ((Octets.value [low, high] : Int).bmod 65536 :: ·) <$> readLevels? rest

/-- What a reader finds in a file of one channel with sixteen bits a sample. -/
structure Recording where
  riffSize : Nat
  rate : Nat
  byteRate : Nat
  blockAlign : Nat
  dataSize : Nat
  levels : List Int
deriving DecidableEq

/-- The number that stands in some bytes at an offset. -/
def fieldAt (offset width : Nat) (bytes : List UInt8) : Nat :=
  Octets.value ((bytes.drop offset).take width)

/-- The text of a mark, a character a byte. -/
def Chunk.name (chunk : Chunk) : String :=
  .ofList (chunk.mark.map fun byte => Char.ofNat byte.toNat)

/-- Reads a file. It is a single chunk of the kind WAVE, which has one with the format and one with
the samples. The format has to be plain samples (`1`) of one channel with sixteen bits. -/
def read? (file : List UInt8) : Option Recording := do
  let (riff, rest) ← readChunk? file
  guard (riff.name = "RIFF" ∧ rest = [] ∧ Chunk.name ⟨riff.contents.take 4, []⟩ = "WAVE")
  let chunks ← readChunks? (riff.contents.drop 4)
  let format ← chunks.find? (·.name = "fmt ")
  let data ← chunks.find? (·.name = "data")
  guard (16 ≤ format.contents.length ∧ fieldAt 0 2 format.contents = 1 ∧
    fieldAt 2 2 format.contents = 1 ∧ fieldAt 14 2 format.contents = 16)
  let levels ← readLevels? data.contents
  return {
    riffSize := riff.contents.length
    rate := fieldAt 4 4 format.contents
    byteRate := fieldAt 8 4 format.contents
    blockAlign := fieldAt 12 2 format.contents
    dataSize := data.contents.length
    levels := levels }

open PcmFile

/-- Four bytes have the value of the number if it fits. -/
lemma value_bytes32 {n : Nat} (fits : n < 2 ^ 32) : Octets.value (bytes32 n) = n := by
  simp only [bytes32, Octets.value_cons, UInt8.toNat_ofNat']
  have none : Octets.value [] = 0 := rfl
  omega

/-- Two bytes have the value of the integer up to multiples of 65536. -/
lemma value_bytes16 (n : Int) : (Octets.value (bytes16 n) : Int) = n % 65536 := by
  simp only [bytes16, Octets.value_cons, UInt8.toNat_ofNat']
  have none : Octets.value [] = 0 := rfl
  omega

namespace Chunk

/-- The chunk as it stands in a file. -/
def bytes (chunk : Chunk) : List UInt8 :=
  chunk.mark ++ bytes32 chunk.contents.length ++ chunk.contents ++
    List.replicate (chunk.contents.length % 2) 0

/-- The length of a chunk with its mark, its size and its padding. -/
lemma length_bytes (chunk : Chunk) : chunk.bytes.length =
    chunk.mark.length + 4 + chunk.contents.length + chunk.contents.length % 2 := by
  simp only [bytes, List.length_append, List.length_replicate]
  rfl

/-- Whether a chunk can stand in a file. -/
structure Fits (chunk : Chunk) : Prop where
  mark : chunk.mark.length = 4
  size : chunk.contents.length < 2 ^ 32

end Chunk

variable {chunk : Chunk}

/-- A chunk is read off the bytes that start with it. -/
lemma readChunk?_append (fits : chunk.Fits) (rest : List UInt8) :
    readChunk? (chunk.bytes ++ rest) = some (chunk, rest) := by
  have size := value_bytes32 fits.size
  simp only [readChunk?, Chunk.bytes, List.append_assoc, take?_append fits.mark,
    take?_append (show (bytes32 chunk.contents.length).length = 4 from rfl), size,
    take?_append (show chunk.contents.length = chunk.contents.length from rfl),
    take?_append (List.length_replicate (n := chunk.contents.length % 2)), Option.bind_eq_bind,
    Option.bind_some]
  rfl

/-- Chunks are read one after the other. -/
lemma readChunks?_of_readChunk? {bytes rest : List UInt8}
    (read : readChunk? bytes = some (chunk, rest)) :
    readChunks? bytes = (chunk :: ·) <$> readChunks? rest := by
  have nonempty : bytes ≠ [] := by
    rintro rfl
    exact absurd (length_lt_of_readChunk? read) (Nat.not_lt_zero _)
  rw [readChunks?, if_neg nonempty]
  split
  case h_1 none =>
    rw [read] at none
    cases none
  case h_2 chunk' rest' read' =>
    rw [read] at read'
    cases read'
    rfl

/-- Chunks that stand one behind the other are read back. -/
lemma readChunks?_bytes {chunks : List Chunk} (fit : ∀ chunk ∈ chunks, chunk.Fits) :
    readChunks? (chunks.flatMap Chunk.bytes) = some chunks := by
  induction chunks with
  | nil =>
    rw [readChunks?]
    rfl
  | cons chunk chunks ih =>
    obtain ⟨first, others⟩ := List.forall_mem_cons.1 fit
    rw [List.flatMap_cons, readChunks?_of_readChunk? (readChunk?_append first _), ih others]
    rfl

/-- Integers of sixteen bits with a sign are read back. -/
lemma readLevels?_bytes16 {levels : List Int}
    (fit : ∀ level ∈ levels, -32768 ≤ level ∧ level ≤ 32767) :
    readLevels? (levels.flatMap bytes16) = some levels := by
  induction levels with
  | nil => rfl
  | cons level levels ih =>
    obtain ⟨first, others⟩ := List.forall_mem_cons.1 fit
    have whole : (level % 65536).bmod 65536 = level :=
      (Int.emod_bmod level 65536).trans (Int.bmod_eq_of_le (by omega) (by omega))
    rw [← value_bytes16] at whole
    have pair : readLevels? (bytes16 level ++ levels.flatMap bytes16) =
        ((Octets.value (bytes16 level) : Int).bmod 65536 :: ·) <$>
          readLevels? (levels.flatMap bytes16) := rfl
    rw [List.flatMap_cons, pair, ih others, whole]
    rfl

end Riff

namespace Number

/-- An integer is a rational rounded if the rational is less than a half below it, or at most a half
above. -/
lemma roundHalfUp_eq_iff {q : Rat} {n : Int} :
    roundHalfUp q = n ↔ (n : Rat) - 1 / 2 ≤ q ∧ q < n + 1 / 2 := by
  have floor : roundHalfUp q = ⌊q + 1 / 2⌋ := rfl
  rw [floor, Int.floor_eq_iff]
  constructor
  · rintro ⟨low, high⟩
    constructor <;> linarith
  · rintro ⟨low, high⟩
    constructor <;> linarith

end Number

namespace PcmFile

/-- What a sample asks for, between minus one and one. Not a number asks for silence. -/
def target : Number → Rat
  | .nan => 0
  | .infinite negative => if negative then -1 else 1
  | .finite q => max (-1) (min q 1)

/-- Whether an integer is the level of a sample: the nearest of those there are, a tie going up. -/
structure Quantizes (sample : Number) (level : Int) : Prop where
  range : -32767 ≤ level ∧ level ≤ 32767
  near : |level - 32767 * target sample| ≤ 1 / 2
  tie : |level - 32767 * target sample| = 1 / 2 → 32767 * target sample < level
  silence : sample = .nan → level = 0

/-- A number is kept within one of zero. -/
lemma clamp_eq (q : Rat) : clamp q = max (-1) (min q 1) := by
  rw [clamp]
  split
  case isTrue low => rw [min_eq_left (by linarith), max_eq_left (by linarith)]
  case isFalse low =>
    split
    case isTrue high => rw [min_eq_right (by linarith), max_eq_right (by norm_num)]
    case isFalse high => rw [min_eq_left (by linarith), max_eq_right (by linarith)]

/-- What a sample is to be scaled from is within one of zero. -/
lemma target_mem (sample : Number) : -1 ≤ target sample ∧ target sample ≤ 1 := by
  cases sample with
  | nan => simp only [target]; norm_num
  | infinite negative => cases negative <;> simp [target]
  | finite q => exact ⟨le_max_left _ _, max_le (by norm_num) (min_le_right _ _)⟩

/-- The level of a sample is what it asks for, rounded. -/
lemma level_eq (sample : Number) : level sample = Number.roundHalfUp (32767 * target sample) := by
  cases sample with
  | nan => decide +kernel
  | infinite negative => cases negative <;> decide +kernel
  | finite q => rw [level, clamp_eq, target, mul_comm]

/-- The level of a sample, and no other integer, quantizes it. -/
lemma quantizes_iff {sample : Number} {n : Int} : Quantizes sample n ↔ n = level sample := by
  rw [level_eq, eq_comm, Number.roundHalfUp_eq_iff]
  constructor
  · rintro ⟨-, near, tie, -⟩
    obtain ⟨low, high⟩ := abs_le.1 near
    refine ⟨by linarith, lt_of_le_of_ne (by linarith) fun half => ?_⟩
    -- A tie that has gone down.
    have distance : |n - 32767 * target sample| = 1 / 2 := by
      rw [half, sub_add_cancel_left, abs_neg, abs_of_pos (by norm_num)]
    linarith [tie distance]
  · rintro ⟨low, high⟩
    obtain ⟨least, greatest⟩ := target_mem sample
    have above : (-32768 : Int) < n := by
      have : (-32768 : Rat) < n := by linarith
      exact_mod_cast this
    have below : n < (32768 : Int) := by
      have : (n : Rat) < 32768 := by linarith
      exact_mod_cast this
    refine ⟨by omega, abs_le.2 ⟨by linarith, by linarith⟩, ?_, ?_⟩
    · intro tie
      obtain up | down := eq_or_eq_neg_of_abs_eq tie <;> linarith
    · rintro rfl
      rw [target, mul_zero] at low high
      have above : -1 < n := by
        have : (-1 : Rat) < n := by linarith
        exact_mod_cast this
      have below : n < 1 := by
        have : (n : Rat) < 1 := by linarith
        exact_mod_cast this
      omega

/-- The chunk with the format of samples at a rate. -/
def formatChunk (rate : Nat) : Riff.Chunk where
  mark := mark "fmt "
  contents :=
    bytes16 1 ++ bytes16 1 ++ bytes32 rate ++ bytes32 (rate * 2) ++ bytes16 2 ++ bytes16 16

/-- The chunk of the samples. -/
def dataChunk (samples : List Number) : Riff.Chunk where
  mark := mark "data"
  contents := (samples.map level).flatMap bytes16

/-- The chunk that holds the others. -/
def fileChunk (samples : List Number) (rate : Nat) : Riff.Chunk where
  mark := mark "RIFF"
  contents := mark "WAVE" ++ [formatChunk rate, dataChunk samples].flatMap Riff.Chunk.bytes

variable {samples : List Number} {rate : Nat}

/-- The length of the chunk of the format. -/
lemma length_formatChunk (rate : Nat) : (formatChunk rate).contents.length = 16 := rfl

/-- There are two bytes for each sample. -/
lemma length_dataChunk (samples : List Number) :
    (dataChunk samples).contents.length = 2 * samples.length := by
  induction samples with
  | nil => rfl
  | cons sample samples ih =>
    rw [dataChunk] at ih ⊢
    rw [List.map_cons, List.flatMap_cons, List.length_append, ih]
    change 2 + _ = _
    rw [List.length_cons]
    omega

/-- The length of the chunk that holds the others. -/
lemma length_fileChunk (samples : List Number) (rate : Nat) :
    (fileChunk samples rate).contents.length = 36 + 2 * samples.length := by
  have wave : (mark "WAVE").length = 4 := rfl
  have format : (formatChunk rate).mark.length = 4 := rfl
  have data : (dataChunk samples).mark.length = 4 := rfl
  simp only [fileChunk, List.flatMap_cons, List.flatMap_nil, List.append_nil, List.length_append,
    Riff.Chunk.length_bytes, length_formatChunk, length_dataChunk, wave, format, data]
  omega

/-- Twice a natural number. -/
lemma double_nat (n : Nat) :
    (Number.finite n).mul .finite (.finite 2) = .finite (n * 2 : Nat) := by
  rw [Number.mul, Nat.cast_mul]
  rfl

/-- A number is put into four bytes if it fits, and refused if not. -/
lemma field_nat (n : Nat) :
    field (.finite n) = if n < 2 ^ 32 then .ok (bytes32 n) else .error .fieldOutOfRange := by
  have whole : (n : Rat).floor = n := Rat.floor_intCast n
  have positive : ¬ (n : Rat) < 0 := not_lt.2 (Nat.cast_nonneg n)
  have greatest : (4294967295 : Rat) < n ↔ ¬ n < 2 ^ 32 := by
    have natural : (4294967295 : Rat) < n ↔ 4294967295 < n := by norm_cast
    rw [natural]
    omega
  simp only [field, whole, positive, greatest, false_or, Int.toNat_natCast, ite_not]

/-- Samples that fit are encoded as chunks. -/
lemma encode_eq_ok (size : 36 + 2 * samples.length < 2 ^ 32) (speed : 2 * rate < 2 ^ 32) :
    encode samples (.finite rate) = .ok (fileChunk samples rate).bytes := by
  simp only [encode, double_nat, field_nat, if_pos size, if_pos (show rate < 2 ^ 32 by omega),
    if_pos (show rate * 2 < 2 ^ 32 by omega), if_pos (show 2 * samples.length < 2 ^ 32 by omega)]
  -- No chunk has to be filled up.
  have even : (36 + 2 * samples.length) % 2 = 0 := by omega
  have even' : 2 * samples.length % 2 = 0 := by omega
  simp only [Riff.Chunk.bytes, length_fileChunk, even, List.replicate_zero, List.append_nil]
  simp only [fileChunk, List.flatMap_cons, List.flatMap_nil, Riff.Chunk.bytes, length_formatChunk,
    length_dataChunk, even', List.replicate_zero, List.append_nil, Nat.reduceMod]
  simp only [dataChunk, formatChunk, List.flatMap_map, List.append_assoc]
  rfl

/-- Nothing is encoded if one of the fields cannot hold its number. -/
lemma encode_eq_error (beyond : ¬ (36 + 2 * samples.length < 2 ^ 32 ∧ 2 * rate < 2 ^ 32)) :
    encode samples (.finite rate) = .error .fieldOutOfRange := by
  simp only [encode, double_nat, field_nat]
  by_cases size : 36 + 2 * samples.length < 2 ^ 32
  · have fast : ¬ rate * 2 < 2 ^ 32 := by omega
    rw [if_pos size, if_neg fast]
    split <;> rfl
  · rw [if_neg size]
    rfl

/-- What is read of the chunk that holds the others. -/
lemma read_fileChunk (size : 36 + 2 * samples.length < 2 ^ 32) (speed : 2 * rate < 2 ^ 32) :
    Riff.read? (fileChunk samples rate).bytes = some {
      riffSize := (fileChunk samples rate).contents.length
      rate := rate
      byteRate := rate * 2
      blockAlign := 2
      dataSize := (dataChunk samples).contents.length
      levels := samples.map level } := by
  have file : (fileChunk samples rate).Fits := ⟨rfl, by rwa [length_fileChunk]⟩
  have whole := Riff.readChunk?_append file []
  rw [List.append_nil] at whole
  have wave : (mark "WAVE").length = 4 := rfl
  have kind : (fileChunk samples rate).contents.take 4 = mark "WAVE" := List.take_left' wave
  have parts : Riff.readChunks? ((fileChunk samples rate).contents.drop 4) =
      some [formatChunk rate, dataChunk samples] := by
    have format : (formatChunk rate).Fits := ⟨rfl, by rw [length_formatChunk]; decide⟩
    have data : (dataChunk samples).Fits := ⟨rfl, by rw [length_dataChunk]; omega⟩
    rw [fileChunk, List.drop_left' wave]
    refine Riff.readChunks?_bytes (List.forall_mem_cons.2 ⟨format, ?_⟩)
    exact List.forall_mem_singleton.2 data
  have levels : Riff.readLevels? (dataChunk samples).contents = some (samples.map level) := by
    refine Riff.readLevels?_bytes16 fun n member => ?_
    obtain ⟨sample, -, rfl⟩ := List.mem_map.1 member
    obtain ⟨low, high⟩ := (quantizes_iff.2 rfl : Quantizes sample (level sample)).range
    omega
  have speed' : Riff.fieldAt 4 4 (formatChunk rate).contents = rate :=
    Riff.value_bytes32 (by omega)
  have byteSpeed : Riff.fieldAt 8 4 (formatChunk rate).contents = rate * 2 :=
    Riff.value_bytes32 (by omega)
  have riffMark : (fileChunk samples rate).name = "RIFF" := rfl
  have waveMark : Riff.Chunk.name ⟨mark "WAVE", []⟩ = "WAVE" := rfl
  have first : [formatChunk rate, dataChunk samples].find? (·.name = "fmt ") =
      some (formatChunk rate) := rfl
  have second : [formatChunk rate, dataChunk samples].find? (·.name = "data") =
      some (dataChunk samples) := rfl
  have supported : 16 ≤ (formatChunk rate).contents.length ∧
      Riff.fieldAt 0 2 (formatChunk rate).contents = 1 ∧
      Riff.fieldAt 2 2 (formatChunk rate).contents = 1 ∧
      Riff.fieldAt 14 2 (formatChunk rate).contents = 16 :=
    ⟨Nat.le_refl 16, rfl, rfl, rfl⟩
  have align : Riff.fieldAt 12 2 (formatChunk rate).contents = 2 := rfl
  simp only [Riff.read?, whole, kind, parts, levels, speed', byteSpeed, riffMark, waveMark, first,
    second, supported, align, guard, and_self, if_true, Option.bind_eq_bind, Option.bind_some,
    Option.pure_def]

/-- Samples and a natural rate make a file exactly if the numbers of its header fit. A reader takes
it for what it is: one channel of sixteen bits at this rate, the sizes that it declares being right,
with the level of every sample. -/
theorem read_encode (samples : List Number) (rate : Nat) :
    (36 + 2 * samples.length < 2 ^ 32 ∧ 2 * rate < 2 ^ 32 → ∃ file recording,
      encode samples (.finite rate) = .ok file ∧
      file.length = 44 + 2 * samples.length ∧
      Riff.read? file = some recording ∧
      recording.riffSize = file.length - 8 ∧
      recording.rate = rate ∧
      recording.blockAlign = 2 ∧
      recording.byteRate = recording.rate * recording.blockAlign ∧
      recording.dataSize = 2 * samples.length ∧
      List.Forall₂ Quantizes samples recording.levels) ∧
    (encode samples (.finite rate) = .error .fieldOutOfRange ↔
      ¬ (36 + 2 * samples.length < 2 ^ 32 ∧ 2 * rate < 2 ^ 32)) := by
  refine ⟨?_, ?_⟩
  · rintro ⟨size, speed⟩
    have length := Riff.Chunk.length_bytes (fileChunk samples rate)
    rw [length_fileChunk, show (fileChunk samples rate).mark.length = 4 from rfl] at length
    refine ⟨_, _, encode_eq_ok size speed, by omega, read_fileChunk size speed, ?_, rfl, rfl, rfl,
      length_dataChunk samples, ?_⟩
    · change (fileChunk samples rate).contents.length = _
      rw [length, length_fileChunk]
      omega
    · rw [List.forall₂_map_right_iff, List.forall₂_same]
      exact fun sample _ => quantizes_iff.2 rfl
  · constructor
    · intro failed fits
      rw [encode_eq_ok fits.1 fits.2] at failed
      cases failed
    · exact encode_eq_error

/-- Silence for what is not a number, ties that go up, and clamped samples; and the least rate that
does not fit. -/
theorem read_encode_edges :
    (∃ file recording,
      encode [.nan, .infinite true, .finite (1 / 65534), .finite (-1 / 65534), .finite 2]
        (.finite (8000 : Nat)) = .ok file ∧
      file.length = 54 ∧ Riff.read? file = some recording ∧
      recording.riffSize = 46 ∧ recording.byteRate = 16000 ∧ recording.dataSize = 10 ∧
      recording.levels = [0, -32767, 1, 0, 32767]) ∧
    encode [] (.finite (2147483648 : Nat)) = .error .fieldOutOfRange := by
  constructor
  · obtain ⟨file, recording, encoded, length, read, riffSize, speed, align, byteSpeed, dataSize,
      quantized⟩ := (read_encode
        [.nan, .infinite true, .finite (1 / 65534), .finite (-1 / 65534), .finite 2] 8000).1
        ⟨by decide, by decide⟩
    refine ⟨file, recording, encoded, length, read, ?_, ?_, dataSize, ?_⟩
    · rw [riffSize, length]
      rfl
    · rw [byteSpeed, speed, align]
    · have levels := quantized.imp fun sample n quantizes => (quantizes_iff.1 quantizes).symm
      rw [← List.forall₂_map_left_iff (R := Eq), List.forall₂_eq_eq_eq] at levels
      rw [← levels]
      decide +kernel
  · exact (read_encode [] 2147483648).2.2 (by decide)

end PcmFile

end Chip8
