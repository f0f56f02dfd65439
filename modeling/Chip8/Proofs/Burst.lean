import Chip8.Proofs.Checksum
import Chip8.Proofs.Octets
import Chip8.Screen
/-!
# Bursts

The register of the check value forgets nothing: a shift can be undone (`shift_injective`), and so
can any bytes that go into it (`foldl_step_injective`). As long as no more bytes went in than the
register has octets, the bytes themselves can be told from it (`eq_of_foldl_step`), since they are a
number that is added to the register and then shifted (`foldl_step_of_short`). Hence the check value
changes with every burst (`checksum_ne_of_burst`), be it that of a single pixel.
-/

namespace Chip8.Crc32

open Octets

variable {r r' : UInt32} {bytes bytes' : List UInt8}

/-- A shift to the right by one place halves. -/
lemma toNat_shiftRight_one (r : UInt32) : (r >>> 1).toNat = r.toNat / 2 := by
  rw [UInt32.toNat_shiftRight]
  exact Nat.shiftRight_one _

/-- The bit that is shifted out is found again at the upper end. -/
lemma eq_zero_of_shift (zero : shift r = 0) : r = 0 := by
  have half := toNat_shiftRight_one r
  have bound := r.toNat_lt
  rw [shift] at zero
  split at zero
  case isTrue odd =>
    have same : r >>> 1 = polynomial := (UInt32.xor_eq_zero_iff.1 zero).symm
    have large : (r >>> 1).toNat = 0xEDB88320 := congrArg UInt32.toNat same
    omega
  case isFalse even =>
    have none_left : (r >>> 1).toNat = 0 := congrArg UInt32.toNat zero
    rw [← UInt32.toNat_inj, UInt32.toNat_mod] at even
    rw [← UInt32.toNat_inj]
    change ¬ r.toNat % 2 = 1 at even
    change r.toNat = 0
    omega

/-- Registers that differ before a shift differ after it. -/
lemma shift_injective : Function.Injective shift := by
  intro a b same
  have zero : shift (a ^^^ b) = 0 := by rw [shift_xor, same, UInt32.xor_self]
  exact UInt32.xor_eq_zero_iff.1 (eq_zero_of_shift zero)

/-- Registers that differ before some shifts differ after them. -/
lemma shifts_injective (n : Nat) : Function.Injective (shifts n) := by
  induction n with
  | zero => exact Function.injective_id
  | succ n ih => exact ih.comp shift_injective

/-- What is added to two registers alike can be taken away again. -/
lemma xor_right_cancel {a : UInt32} (same : r ^^^ a = r' ^^^ a) : r = r' := by
  have undone := congrArg (· ^^^ a) same
  simpa only [UInt32.xor_assoc, UInt32.xor_self, UInt32.xor_zero] using undone

/-- What the register was before some bytes can be told from what it is after them. -/
lemma foldl_step_injective (bytes : List UInt8) :
    Function.Injective fun register => bytes.foldl step register := by
  induction bytes with
  | nil => exact Function.injective_id
  | cons byte rest ih =>
    intro a b same
    have first : step a byte = step b byte := ih same
    rw [step_eq_shifts, step_eq_shifts] at first
    exact xor_right_cancel (shifts_injective 8 first)

/-- Numbers that have no bits in common add up bit by bit. -/
lemma add_eq_xor {low : Nat} (octet : low < 2 ^ 8) (high : Nat) :
    low + 2 ^ 8 * high = low ^^^ 2 ^ 8 * high := by
  have parts := Nat.div_add_mod (low ^^^ 2 ^ 8 * high) (2 ^ 8)
  rw [Nat.xor_div_two_pow, Nat.xor_mod_two_pow, Nat.div_eq_of_lt octet, Nat.mod_eq_of_lt octet,
    Nat.mul_div_cancel_left _ (by decide), Nat.mul_mod_right, Nat.zero_xor, Nat.xor_zero] at parts
  rw [← parts, Nat.add_comm]

/-- Shifts can be made in two parts. -/
lemma shifts_add (n k : Nat) (register : UInt32) :
    shifts (n + k) register = shifts k (shifts n register) := by
  induction n generalizing register with
  | zero => rw [Nat.zero_add, shifts]
  | succ n ih => rw [Nat.succ_add, shifts, ih, shifts]

/-- Up to four bytes go into the register as they would all at once. -/
lemma foldl_step_of_short (short : bytes.length ≤ 4) (register : UInt32) :
    bytes.foldl step register = shifts (8 * bytes.length) (register ^^^ .ofNat (value bytes)) := by
  induction bytes generalizing register with
  | nil => exact (UInt32.xor_zero).symm
  | cons byte rest ih =>
    have fits : 2 ^ 8 * value rest < 2 ^ 32 :=
      Nat.lt_of_le_of_lt (Nat.le_add_left _ _) (value_lt_of_short short)
    have small : value rest < 2 ^ 32 := value_lt_of_short (Nat.le_of_succ_le short)
    have whole : (UInt32.ofNat (2 ^ 8 * value rest)).toNat = 2 ^ 8 * value rest :=
      UInt32.toNat_ofNat_of_lt' fits
    -- What comes behind the first byte waits above it and is shifted down while that byte leaves.
    have down : shifts 8 (.ofNat (2 ^ 8 * value rest)) = .ofNat (value rest) := by
      rw [← UInt32.toNat_inj, shifts_of_dvd (by rw [whole]; exact Dvd.intro _ rfl), whole,
        UInt32.toNat_ofNat_of_lt' small]
      exact Nat.mul_div_cancel_left _ (by decide)
    have word : UInt32.ofNat (value (byte :: rest)) =
        byte.toUInt32 ^^^ .ofNat (2 ^ 8 * value rest) := by
      have first : byte.toUInt32 = .ofNat byte.toNat := UInt32.toNat_inj.1 <| by
        rw [UInt8.toNat_toUInt32]
        exact (UInt32.toNat_ofNat_of_lt' (Nat.lt_trans byte.toNat_lt (by decide))).symm
      rw [value_cons, first, ← UInt32.ofNat_xor]
      exact congrArg UInt32.ofNat (add_eq_xor byte.toNat_lt _)
    calc
      (byte :: rest).foldl step register
      _ = shifts (8 * rest.length) (step register byte ^^^ .ofNat (value rest)) :=
        ih (Nat.le_of_succ_le short) _
      _ = shifts (8 * rest.length)
          (shifts 8 (register ^^^ byte.toUInt32 ^^^ .ofNat (2 ^ 8 * value rest))) := by
        rw [step_eq_shifts, shifts_xor 8 (register ^^^ _), down]
      _ = shifts (8 * (byte :: rest).length) (register ^^^ .ofNat (value (byte :: rest))) := by
        rw [← shifts_add, word, UInt32.xor_assoc, List.length_cons, Nat.mul_succ, Nat.add_comm 8]

/-- Up to four bytes that go into the register can be told from what it is after them. -/
lemma eq_of_foldl_step (short : bytes.length ≤ 4) (length : bytes.length = bytes'.length)
    {register : UInt32} (same : bytes.foldl step register = bytes'.foldl step register) :
    bytes = bytes' := by
  rw [foldl_step_of_short short, foldl_step_of_short (length ▸ short), length,
    UInt32.xor_comm register, UInt32.xor_comm register] at same
  have words := xor_right_cancel (shifts_injective _ same)
  have numbers := congrArg UInt32.toNat words
  rw [UInt32.toNat_ofNat_of_lt' (value_lt_of_short short),
    UInt32.toNat_ofNat_of_lt' (value_lt_of_short (length ▸ short))] at numbers
  exact eq_of_value length numbers

/-- Whether two sequences of bytes differ at most at the four positions from one on. -/
def WithinBurst (start : Nat) (bytes bytes' : List UInt8) : Prop :=
  ∀ i, bytes[i]? ≠ bytes'[i]? → start ≤ i ∧ i < start + 4

/-- In front of a burst the bytes are the same. -/
lemma WithinBurst.take_eq {start : Nat} (burst : WithinBurst start bytes bytes') :
    bytes.take start = bytes'.take start := by
  refine List.ext_getElem? fun i => ?_
  rw [List.getElem?_take, List.getElem?_take]
  split
  case isTrue before =>
    by_contra differ
    exact absurd (burst i differ).1 (Nat.not_le.2 before)
  case isFalse => rfl

/-- Behind a burst the bytes are the same. -/
lemma WithinBurst.drop_eq {start : Nat} (burst : WithinBurst start bytes bytes') :
    bytes.drop (start + 4) = bytes'.drop (start + 4) := by
  refine List.ext_getElem? fun i => ?_
  rw [List.getElem?_drop, List.getElem?_drop]
  by_contra differ
  exact absurd (burst _ differ).2 (Nat.not_lt.2 (Nat.le_add_right _ _))

/-- Bytes that differ at most in a burst have the same check value only if they are the same. -/
lemma WithinBurst.eq_of_checksum {start : Nat} (burst : WithinBurst start bytes bytes')
    (length : bytes.length = bytes'.length) (same : checksum bytes = checksum bytes') :
    bytes = bytes' := by
  have parts (bytes : List UInt8) :
      bytes = bytes.take start ++ ((bytes.drop start).take 4 ++ bytes.drop (start + 4)) := by
    rw [← List.drop_drop, List.take_append_drop, List.take_append_drop]
  have registers : bytes.foldl step 0xFFFFFFFF = bytes'.foldl step 0xFFFFFFFF :=
    UInt32.not_inj.1 same
  -- Both begin alike, and bytes that are the same behind the burst do not hide a difference.
  rw [parts bytes, parts bytes', burst.take_eq, burst.drop_eq, List.foldl_append,
    List.foldl_append, List.foldl_append, List.foldl_append] at registers
  have middle := eq_of_foldl_step (List.length_take_le _ _)
    (by rw [List.length_take, List.length_take, List.length_drop, List.length_drop, length])
    (foldl_step_injective _ registers)
  rw [parts bytes, parts bytes', burst.take_eq, middle, burst.drop_eq]

end Chip8.Crc32

namespace Chip8.Screen

/-- Turning over a pixel changes the one byte that stands for it. -/
lemma toBytes_toggle (s : Screen) (k : Fin area) :
    (s.toggle k).2.toBytes = s.toBytes.set k (if s.pixels.get k then 0 else 1) := by
  have cell : (if !s.pixels.get k then 1 else 0 : UInt8) = if s.pixels.get k then 0 else 1 := by
    cases s.pixels.get k <;> rfl
  rw [toBytes, toBytes, toggle, ← cell, ← List.map_set]
  exact congrArg (List.map _) (Vector.toList_set k.isLt)

/-- A screen has a byte for each of its pixels. -/
lemma length_toBytes (s : Screen) : s.toBytes.length = area := by
  rw [toBytes, List.length_map, Vector.length_toList]

/-- The byte of a pixel tells whether it is on. -/
lemma getElem?_toBytes (s : Screen) (k : Fin area) :
    s.toBytes[k.val]? = some (if s.pixels.get k then 1 else 0) := by
  rw [toBytes, List.getElem?_map, Vector.getElem?_toList, Vector.getElem?_eq_getElem k.isLt]
  rfl

/-- Turning a pixel over changes one byte of the screen. -/
lemma toBytes_toggle_ne (s : Screen) (k : Fin area) : (s.toggle k).2.toBytes ≠ s.toBytes := by
  have inside : k.val < s.toBytes.length := by
    rw [length_toBytes]
    exact k.isLt
  intro same
  have cells := congrArg (·[k.val]?) ((toBytes_toggle s k).symm.trans same)
  simp only [List.getElem?_set_self inside, getElem?_toBytes] at cells
  cases lit : s.pixels.get k <;> simp [lit] at cells

end Chip8.Screen

namespace Chip8.Crc32

/-- Sequences of as many bytes that are not the same, but differ only at some four positions in a
row, have different check values. So a screen has another check value when a single pixel is turned
over. -/
theorem checksum_ne_of_burst :
    (∀ {bytes bytes' : List UInt8} {start : Nat}, bytes.length = bytes'.length → bytes ≠ bytes' →
      WithinBurst start bytes bytes' → checksum bytes ≠ checksum bytes') ∧
    ∀ (s : Screen) (k : Fin Screen.area), checksum (s.toggle k).2.toBytes ≠ checksum s.toBytes := by
  refine ⟨fun length differ burst same => differ (burst.eq_of_checksum length same), ?_⟩
  intro s k same
  have single : WithinBurst k (s.toggle k).2.toBytes s.toBytes := by
    intro i differ
    rw [Screen.toBytes_toggle, List.getElem?_set] at differ
    split at differ
    case isTrue here => omega
    case isFalse => exact absurd rfl differ
  refine Screen.toBytes_toggle_ne s k (single.eq_of_checksum ?_ same)
  rw [Screen.toBytes_toggle, List.length_set]

/-- The first and the last of four positions, with bytes in between and around that are the same. -/
theorem checksum_ne_of_burst_apart :
    WithinBurst 1 [1, 2, 3, 4, 5, 6] [1, 0xFF, 3, 4, 0xAA, 6] ∧
      checksum [1, 2, 3, 4, 5, 6] ≠ checksum [1, 0xFF, 3, 4, 0xAA, 6] := by
  have burst : WithinBurst 1 [1, 2, 3, 4, 5, 6] [1, 0xFF, 3, 4, 0xAA, 6] := by
    intro i differ
    by_cases inside : i < 6
    · exact (show ∀ i < 6, ([1, 2, 3, 4, 5, 6] : List UInt8)[i]? ≠
        ([1, 0xFF, 3, 4, 0xAA, 6] : List UInt8)[i]? → 1 ≤ i ∧ i < 5 by decide) i inside differ
    · rw [List.getElem?_eq_none (Nat.not_lt.1 inside),
        List.getElem?_eq_none (Nat.not_lt.1 inside)] at differ
      exact absurd rfl differ
  exact ⟨burst, checksum_ne_of_burst.1 rfl (by decide) burst⟩

end Chip8.Crc32
