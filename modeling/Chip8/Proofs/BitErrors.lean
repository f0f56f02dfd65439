import Chip8.Proofs.Hexadecimal
import Chip8.Proofs.Period
/-!
# Two wrong bits

A bit of a sequence that is turned over changes the register by what that bit is shifted to until
the end (`foldl_step_flipBit`), whatever the bytes are. So two of them cancel out only if they are a
multiple of the register's period apart. The check value tells a screen from what it is when any two
of its pixels are turned over, however far they are apart (`checksum_two_bits`).
-/

namespace Chip8.Crc32

variable {bytes : List UInt8} {n : Nat}

/-- Turns over a bit of a sequence. The bits of each byte are counted from the lowest. -/
def flipBit (bytes : List UInt8) (n : Nat) : List UInt8 :=
  bytes.modify (n / 8) (· ^^^ UInt8.ofNat (2 ^ (n % 8)))

/-- Turning over a bit leaves the number of bytes as it is. -/
lemma length_flipBit (bytes : List UInt8) (n : Nat) : (flipBit bytes n).length = bytes.length :=
  List.length_modify ..

/-- One of the first eight bits is in the first byte. -/
lemma flipBit_cons_of_lt (small : n < 8) (byte : UInt8) (rest : List UInt8) :
    flipBit (byte :: rest) n = (byte ^^^ UInt8.ofNat (2 ^ n)) :: rest := by
  rw [flipBit, Nat.div_eq_of_lt small, Nat.mod_eq_of_lt small, List.modify_zero_cons]

/-- The other bits are in the other bytes. -/
lemma flipBit_cons_add (byte : UInt8) (rest : List UInt8) (n : Nat) :
    flipBit (byte :: rest) (n + 8) = byte :: flipBit rest n := by
  rw [flipBit, Nat.add_div_right n (by decide), Nat.add_mod_right, List.modify_succ_cons, flipBit]

/-- A difference in the register is shifted along while bytes go in. -/
lemma foldl_step_xor (bytes : List UInt8) (register difference : UInt32) :
    bytes.foldl step (register ^^^ difference) =
      bytes.foldl step register ^^^ shifts (8 * bytes.length) difference := by
  induction bytes generalizing register difference with
  | nil => rfl
  | cons byte rest ih =>
    have first : step (register ^^^ difference) byte =
        step register byte ^^^ shifts 8 difference := by
      rw [step_eq_shifts, step_eq_shifts, ← shifts_xor, UInt32.xor_assoc,
        UInt32.xor_comm difference, ← UInt32.xor_assoc]
    rw [List.foldl_cons, List.foldl_cons, first, ih, ← shifts_add, List.length_cons, Nat.mul_succ,
      Nat.add_comm 8]

/-- A bit of a byte is shifted out like the lowest one some places further up. -/
lemma shifts_lowest : ∀ n < 8, shifts 8 (UInt8.ofNat (2 ^ n)).toUInt32 = shifts (8 - n) 1 := by
  decide +kernel

/-- A bit that is turned over changes the register as a single bit does that is shifted to the
end. -/
lemma foldl_step_flipBit (inside : n < 8 * bytes.length) (register : UInt32) :
    (flipBit bytes n).foldl step register =
      bytes.foldl step register ^^^ shifts (8 * bytes.length - n) 1 := by
  induction bytes generalizing n register with
  | nil => exact absurd inside (Nat.not_lt_zero n)
  | cons byte rest ih =>
    rw [List.length_cons] at inside ⊢
    by_cases small : n < 8
    · have first : step register (byte ^^^ UInt8.ofNat (2 ^ n)) =
          step register byte ^^^ shifts (8 - n) 1 := by
        rw [step_eq_shifts, step_eq_shifts, UInt8.toUInt32_xor, ← UInt32.xor_assoc, shifts_xor,
          shifts_lowest n small]
      rw [flipBit_cons_of_lt small, List.foldl_cons, first, foldl_step_xor, ← shifts_add,
        List.foldl_cons]
      congr 2
      omega
    · obtain ⟨k, rfl⟩ := Nat.exists_eq_add_of_le' (Nat.not_lt.1 small)
      rw [flipBit_cons_add, List.foldl_cons, List.foldl_cons, ih (by omega)]
      congr 2
      omega

/-- Two changes of a register cancel out if and only if they are the same. -/
lemma xor_xor_eq_iff {a b : UInt32} (register : UInt32) :
    register ^^^ a ^^^ b = register ↔ a = b := by
  rw [UInt32.xor_assoc]
  constructor
  · intro same
    refine UInt32.xor_eq_zero_iff.1 (xor_right_cancel (a := register) ?_)
    rwa [UInt32.xor_comm _ register, UInt32.zero_xor]
  · rintro rfl
    rw [UInt32.xor_self, UInt32.xor_zero]

/-- Of two numbers that are taken from the same one the same is left, up to a modulus, just if they
are the same up to it. -/
lemma sub_modEq_iff {i j k m : Nat} (first : i ≤ k) (second : j ≤ k) :
    k - i ≡ k - j [MOD m] ↔ i ≡ j [MOD m] := by
  have whole : k - i + i ≡ k - j + j [MOD m] := by
    rw [Nat.sub_add_cancel first, Nat.sub_add_cancel second]
  exact ⟨fun rest => rest.add_left_cancel whole, fun taken => taken.add_right_cancel whole⟩

/-- Two bits that are turned over go unnoticed just if they are a multiple of the period apart. -/
lemma checksum_flipBit_flipBit {i j : Nat} (first : i < 8 * bytes.length)
    (second : j < 8 * bytes.length) :
    checksum (flipBit (flipBit bytes i) j) = checksum bytes ↔ i ≡ j [MOD 2 ^ 32 - 1] := by
  have later : j < 8 * (flipBit bytes i).length := by rwa [length_flipBit]
  rw [checksum, checksum, UInt32.not_inj, foldl_step_flipBit later, foldl_step_flipBit first,
    length_flipBit, xor_xor_eq_iff, shifts_one_eq_iff, sub_modEq_iff first.le second.le]

end Chip8.Crc32

namespace Chip8.Screen

/-- Turning a pixel over turns the lowest bit of its byte over. -/
lemma toBytes_toggle_eq_flipBit (s : Screen) (k : Fin area) :
    (s.toggle k).2.toBytes = Crc32.flipBit s.toBytes (8 * k) := by
  rw [toBytes_toggle, Crc32.flipBit, Nat.mul_div_cancel_left _ (by decide), Nat.mul_mod_right,
    List.modify_eq_set, getElem?_toBytes]
  cases s.pixels.get k <;> rfl

end Chip8.Screen

namespace Chip8.Crc32

/-- Other check values are other texts. -/
lemma checksum_eq_of_checksumHex {bytes bytes' : List UInt8}
    (same : checksumHex bytes = checksumHex bytes') : checksum bytes = checksum bytes' :=
  UInt32.toNat_inj.1 (Text.hexLower_injective 8 same)

/-- A screen of which any two pixels are turned over has another check value, and another text for
it. As to bytes in general, two bits that are turned over leave the check value if and only if they
are a multiple of `2 ^ 32 - 1` bits apart. -/
theorem checksum_two_bits :
    (∀ (s : Screen) (i j : Fin Screen.area), i ≠ j →
      checksum ((s.toggle i).2.toggle j).2.toBytes ≠ checksum s.toBytes ∧
        checksumHex ((s.toggle i).2.toggle j).2.toBytes ≠ checksumHex s.toBytes) ∧
    ∀ (bytes : List UInt8) (i j : Nat), i < 8 * bytes.length → j < 8 * bytes.length →
      (checksum (flipBit (flipBit bytes i) j) = checksum bytes ↔ i ≡ j [MOD 2 ^ 32 - 1]) := by
  refine ⟨?_, fun bytes i j => checksum_flipBit_flipBit⟩
  intro s i j apart
  have inside (k : Fin Screen.area) : 8 * k.val < 8 * s.toBytes.length := by
    rw [s.length_toBytes]
    exact Nat.mul_lt_mul_of_pos_left k.isLt (by decide)
  have bound (k : Fin Screen.area) : 8 * k.val < 2 ^ 32 - 1 := by
    have := k.isLt
    simp only [Screen.area, Screen.width, Screen.height] at this
    omega
  have differ : checksum ((s.toggle i).2.toggle j).2.toBytes ≠ checksum s.toBytes := by
    rw [Screen.toBytes_toggle_eq_flipBit, Screen.toBytes_toggle_eq_flipBit, Ne,
      checksum_flipBit_flipBit (inside i) (inside j)]
    intro same
    have places := same.eq_of_lt_of_lt (bound i) (bound j)
    exact apart (Fin.ext (Nat.eq_of_mul_eq_mul_left (by decide) places))
  exact ⟨differ, fun same => differ (checksum_eq_of_checksumHex same)⟩

/-- The first and the last pixel of a screen. -/
theorem checksum_two_bits_corners :
    (⟨0, by decide⟩ : Fin Screen.area) ≠ ⟨2047, by decide⟩ ∧
      checksumHex ((Screen.blank.toggle ⟨0, by decide⟩).2.toggle ⟨2047, by decide⟩).2.toBytes ≠
        checksumHex Screen.blank.toBytes :=
  ⟨by decide, (checksum_two_bits.1 Screen.blank _ _ (by decide)).2⟩

end Chip8.Crc32
