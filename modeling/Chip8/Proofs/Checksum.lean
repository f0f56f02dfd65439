import Chip8.Crc32
import Mathlib.Data.Nat.Bitwise
import Mathlib.Tactic.Lemma
/-!
# The check value bit by bit

`Crc32.bitwise` is the check value as the standard has it: the bits of each element, the least
significant first, go into the register one by one. `shift` is linear in exclusive or
(`shift_xor`), and so are eight shifts in a row (`shifts_xor`). Hence what an octet that is shifted
out contributes can be looked up in a table (`step_eq_shifts`), and the check values that go by the
table are those that go bit by bit (`checksumIntegers_eq_bitwise`).
-/

namespace Chip8.Crc32

variable {a b r : UInt32} {n : Nat}

/-- The register after one bit. -/
def feed (register : UInt32) (bit : Bool) : UInt32 :=
  if (register % 2 = 1) ≠ bit then polynomial ^^^ (register >>> 1) else register >>> 1

/-- The low eight bits of an integer, the least significant first. -/
def lowBits (element : Int) : List Bool := (List.range 8).map (element % 256).toNat.testBit

/-- The check value of a sequence of integers, bit by bit. -/
def bitwise (elements : List Int) : UInt32 :=
  ~~~ (elements.flatMap lowBits).foldl feed 0xFFFFFFFF

/-- The lowest bit of a sum without carries is set if and only if it is in one of the two. -/
lemma odd_xor : (a ^^^ b) % 2 = 1 ↔ ¬ (a % 2 = 1 ↔ b % 2 = 1) := by
  simp only [← UInt32.toNat_inj, UInt32.toNat_mod, UInt32.toNat_xor]
  exact Nat.xor_mod_two_eq_one

/-- Shifting is linear. -/
lemma shift_xor (a b : UInt32) : shift (a ^^^ b) = shift a ^^^ shift b := by
  have cancel (p x y : UInt32) : p ^^^ x ^^^ (p ^^^ y) = x ^^^ y := by
    rw [UInt32.xor_comm p x, UInt32.xor_assoc, ← UInt32.xor_assoc p p y, UInt32.xor_self,
      UInt32.zero_xor]
  simp only [shift, odd_xor, UInt32.shiftRight_xor]
  by_cases ha : a % 2 = 1 <;> by_cases hb : b % 2 = 1 <;> simp only [ha, hb]
  · simp [cancel]
  · simp [UInt32.xor_assoc]
  · simp [← UInt32.xor_assoc, UInt32.xor_comm polynomial]
  · simp

/-- Shifts of a sum without carries can be made one by one. -/
lemma shifts_xor (n : Nat) (a b : UInt32) : shifts n (a ^^^ b) = shifts n a ^^^ shifts n b := by
  induction n generalizing a b with
  | zero => rfl
  | succ n ih => rw [shifts, shift_xor, ih, ← shifts, ← shifts]

/-- Zeros at the low end are shifted out and leave no trace. -/
lemma shifts_of_dvd (h : 2 ^ n ∣ r.toNat) : (shifts n r).toNat = r.toNat / 2 ^ n := by
  induction n generalizing r with
  | zero => simp [shifts]
  | succ n ih =>
    have even : ¬ r % 2 = 1 := by
      rw [← UInt32.toNat_inj, UInt32.toNat_mod]
      have two : 2 ∣ r.toNat := (Dvd.intro_left (2 ^ n) rfl).trans h
      change ¬ r.toNat % 2 = 1
      omega
    have half : (shift r).toNat = r.toNat / 2 := by
      rw [shift, if_neg even, UInt32.toNat_shiftRight]
      exact Nat.shiftRight_one _
    have rest : 2 ^ n ∣ (shift r).toNat := by
      rw [half]
      rw [Nat.pow_succ'] at h
      exact Nat.dvd_div_of_mul_dvd h
    rw [shifts, ih rest, half, Nat.div_div_eq_div_mul, ← Nat.pow_succ']

/-- Eight shifts move the register down by an octet and add what the table has for the octet that
goes. -/
lemma shifts_eight (r : UInt32) : shifts 8 r = (r >>> 8) ^^^ shifts 8 (.ofNat (r.toNat % 256)) := by
  let low : UInt32 := .ofNat (r.toNat % 256)
  have value : low.toNat = r.toNat % 2 ^ 8 :=
    UInt32.toNat_ofNat_of_lt' (Nat.lt_trans (Nat.mod_lt _ (by decide)) (by decide))
  have split : r = (r ^^^ low) ^^^ low := by rw [UInt32.xor_assoc, UInt32.xor_self, UInt32.xor_zero]
  have clear : 2 ^ 8 ∣ (r ^^^ low).toNat := by
    rw [Nat.dvd_iff_mod_eq_zero, UInt32.toNat_xor, Nat.xor_mod_two_pow, value, Nat.mod_mod,
      Nat.xor_self]
  have moved : shifts 8 (r ^^^ low) = r >>> 8 := by
    rw [← UInt32.toNat_inj, shifts_of_dvd clear, UInt32.toNat_xor, Nat.xor_div_two_pow, value,
      Nat.div_eq_of_lt (Nat.mod_lt _ (by decide)), Nat.xor_zero, UInt32.toNat_shiftRight,
      Nat.shiftRight_eq_div_pow]
    rfl
  rw [← moved, ← shifts_xor, ← split]

/-- The entries of the table are what eight shifts make of the octets. -/
lemma get_table (octet : Fin 256) : table.get octet = shifts 8 (.ofNat octet) := by
  change table[octet.val] = _
  rw [table, Vector.getElem_ofFn]

/-- A byte goes into the register by exclusive or, and is then shifted out. -/
lemma step_eq_shifts (register : UInt32) (byte : UInt8) :
    step register byte = shifts 8 (register ^^^ byte.toUInt32) := by
  have none_left : byte.toUInt32 >>> 8 = 0 := by
    rw [← UInt32.toNat_inj, UInt32.toNat_shiftRight, UInt8.toNat_toUInt32,
      Nat.shiftRight_eq_div_pow]
    exact Nat.div_eq_of_lt byte.toNat_lt
  rw [shifts_eight, UInt32.shiftRight_xor, none_left, UInt32.xor_zero, step, get_table]

/-- A bit goes into the register by exclusive or, and is then shifted out. -/
lemma feed_eq_shift (register : UInt32) (bit : Bool) :
    feed register bit = shift (register ^^^ .ofNat bit.toNat) := by
  have one : (1 : UInt32) >>> 1 = 0 := rfl
  cases bit with
  | false => simp [feed, shift]
  | true => simp [feed, shift, odd_xor, UInt32.shiftRight_xor, one]

/-- A number is its lowest bit and the others. -/
lemma eq_lowest_xor (value : Nat) : value = (value.testBit 0).toNat ^^^ 2 * (value / 2) := by
  apply Nat.eq_of_testBit_eq
  intro i
  rw [Nat.testBit_xor]
  cases i with
  | zero => cases value.testBit 0 <;> simp
  | succ i =>
    rw [Nat.testBit_succ, Nat.testBit_succ, Nat.testBit_succ, Nat.mul_div_cancel_left _ (by decide)]
    cases value.testBit 0 <;> simp

/-- An even number is halved. -/
lemma shift_double {value : Nat} (fits : 2 * value < 2 ^ 32) :
    shift (.ofNat (2 * value)) = .ofNat value := by
  have whole : (UInt32.ofNat (2 * value)).toNat = 2 * value := UInt32.toNat_ofNat_of_lt' fits
  have even : 2 ^ 1 ∣ (UInt32.ofNat (2 * value)).toNat := by
    rw [whole]
    exact Dvd.intro value rfl
  have half : value < 2 ^ 32 := by omega
  rw [← UInt32.toNat_inj, show shift (.ofNat (2 * value)) = shifts 1 (.ofNat (2 * value)) from rfl,
    shifts_of_dvd even, whole, UInt32.toNat_ofNat_of_lt' half]
  exact Nat.mul_div_cancel_left value (by decide)

/-- The bits of a number go into the register one by one as they would all at once. -/
lemma foldl_feed (value : Nat) (fits : value < 2 ^ n) (small : n ≤ 32) (register : UInt32) :
    ((List.range n).map value.testBit).foldl feed register =
      shifts n (register ^^^ .ofNat value) := by
  induction n generalizing value register with
  | zero => simp [Nat.lt_one_iff.1 fits, shifts]
  | succ n ih =>
    -- The lowest bit is fed, the others are those of half the number.
    have later : (List.range (n + 1)).map value.testBit =
        value.testBit 0 :: (List.range n).map (value / 2).testBit := by
      rw [List.range_succ_eq_map, List.map_cons, List.map_map]
      exact congrArg _ (List.map_congr_left fun k _ => Nat.testBit_succ value k)
    have half : value / 2 < 2 ^ n := by
      rw [Nat.pow_succ] at fits
      omega
    have word : 2 * (value / 2) < 2 ^ 32 :=
      Nat.lt_of_le_of_lt (Nat.mul_div_le value 2)
        (Nat.lt_of_lt_of_le fits (Nat.pow_le_pow_right (by decide) small))
    have parts : UInt32.ofNat value =
        .ofNat (value.testBit 0).toNat ^^^ .ofNat (2 * (value / 2)) := by
      rw [← UInt32.ofNat_xor, ← eq_lowest_xor]
    rw [later, List.foldl_cons, ih (value / 2) half (Nat.le_of_succ_le small), feed_eq_shift,
      shifts,
      ← shift_double word, ← shift_xor, UInt32.xor_assoc, ← parts]

/-- An element counts by its lowest eight bits. -/
lemma toNat_toUInt32_ofInt (element : Int) :
    (UInt8.ofInt element).toUInt32.toNat = (element % 256).toNat := by
  have octet : (element % 256).toNat < 256 := by omega
  rw [UInt8.toNat_toUInt32]
  exact Nat.mod_eq_of_lt octet

/-- A byte goes into the register bit by bit. -/
lemma foldl_feed_lowBits (element : Int) (register : UInt32) :
    (lowBits element).foldl feed register = step register (UInt8.ofInt element) := by
  have octet : (element % 256).toNat < 2 ^ 8 := by omega
  have word : UInt32.ofNat (element % 256).toNat = (UInt8.ofInt element).toUInt32 := by
    rw [← UInt32.toNat_inj, toNat_toUInt32_ofInt]
    exact UInt32.toNat_ofNat_of_lt' (Nat.lt_trans octet (by decide))
  rw [lowBits, foldl_feed _ octet (by decide), step_eq_shifts, word]

/-- Of an element only the low octet goes into the register, and it does not matter that the
register is a signed word. -/
lemma toUInt32_stepInteger (register : Int32) (element : Int) :
    (stepInteger register element).toUInt32 = step register.toUInt32 (UInt8.ofInt element) := by
  have low : (Int32.ofInt element).toUInt32.toNat % 2 ^ 8 = (element % 256).toNat := by
    change (BitVec.ofInt 32 element).toNat % 2 ^ 8 = _
    rw [BitVec.toNat_ofInt]
    omega
  have octet : ((register ^^^ Int32.ofInt element) &&& 0xFF).toUInt32.toNat =
      (register.toUInt32 ^^^ (UInt8.ofInt element).toUInt32).toNat % 2 ^ 8 := by
    rw [Int32.toUInt32_and, Int32.toUInt32_xor, UInt32.toNat_and, UInt32.toNat_xor,
      show (0xFF : Int32).toUInt32.toNat = 2 ^ 8 - 1 from rfl, Nat.and_two_pow_sub_one_eq_mod,
      Nat.xor_mod_two_pow, low, UInt32.toNat_xor, Nat.xor_mod_two_pow, toNat_toUInt32_ofInt]
    congr 1
    omega
  have inside := Nat.mod_lt (register.toUInt32 ^^^ (UInt8.ofInt element).toUInt32).toNat
    (show 0 < 2 ^ 8 by decide)
  rw [stepInteger, Int32.toUInt32_xor, UInt32.toUInt32_toInt32, UInt32.toUInt32_toInt32, octet,
    Vector.getElem?_eq_getElem inside]
  rfl

/-- Integers have the check value of their low octets. -/
lemma checksumIntegers_eq_checksum (elements : List Int) :
    checksumIntegers elements = (checksum (elements.map UInt8.ofInt)).toNat := by
  rw [checksumIntegers, checksum, Int32.toUInt32_not, List.foldl_map]
  congr 2
  exact (List.foldl_hom Int32.toUInt32 fun r e => (toUInt32_stepInteger r e).symm).symm

/-- The check value of a sequence of integers goes bit by bit, is a word, and comes of the low eight
bits of each integer alone. -/
theorem checksumIntegers_eq_bitwise (elements : List Int) :
    checksumIntegers elements = (bitwise elements).toNat ∧ checksumIntegers elements < 2 ^ 32 ∧
      checksumIntegers elements = checksumIntegers (elements.map (· % 256)) := by
  refine ⟨?_, ?_, ?_⟩
  · rw [checksumIntegers_eq_checksum, checksum, bitwise, List.foldl_flatMap, List.foldl_map]
    simp only [foldl_feed_lowBits]
  · exact UInt32.toNat_lt _
  · rw [checksumIntegers_eq_checksum, checksumIntegers_eq_checksum, List.map_map]
    have same (e : Int) : UInt8.ofInt (e % 256) = UInt8.ofInt e :=
      congrArg (fun n : Int => UInt8.ofNat n.toNat) (Int.emod_emod_of_dvd e (Int.dvd_refl 256))
    congr 2
    exact List.map_congr_left fun e _ => (same e).symm

/-- The check value of the digits from one to nine. -/
example : bitwise [49, 50, 51, 52, 53, 54, 55, 56, 57] = 0xCBF43926 := by decide +kernel

end Chip8.Crc32
