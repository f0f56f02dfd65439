import Mathlib.Data.Nat.Digits.Lemmas
import Mathlib.Tactic.Lemma
/-!
# Octets

Bytes as a number, the first of them being the lowest. As many bytes are the same number only if
they are the same (`eq_of_value`).
-/

namespace Chip8.Octets

variable {bytes bytes' : List UInt8}

/-- The number that bytes are, the first of them being the lowest. -/
def value (bytes : List UInt8) : Nat := Nat.ofDigits 256 (bytes.map UInt8.toNat)

/-- The first byte counts once, and those behind 256 times. -/
lemma value_cons (byte : UInt8) (rest : List UInt8) :
    value (byte :: rest) = byte.toNat + 256 * value rest := rfl

/-- Bytes are digits in base 256. -/
lemma digits_lt (bytes : List UInt8) : ∀ digit ∈ bytes.map UInt8.toNat, digit < 256 := by
  intro digit member
  obtain ⟨byte, -, rfl⟩ := List.mem_map.1 member
  exact byte.toNat_lt

/-- The value of bytes is below as many powers of 256. -/
lemma value_lt (bytes : List UInt8) : value bytes < 256 ^ bytes.length := by
  have bound := Nat.ofDigits_lt_base_pow_length (b := 256) (by decide) (digits_lt bytes)
  rwa [List.length_map] at bound

/-- The value of up to four bytes fits into a register. -/
lemma value_lt_of_short (short : bytes.length ≤ 4) : value bytes < 2 ^ 32 :=
  Nat.lt_of_lt_of_le (value_lt bytes) (Nat.pow_le_pow_right (by decide) short)

/-- Bytes of the same number are the same, if there are as many of them. -/
lemma eq_of_value (length : bytes.length = bytes'.length) (same : value bytes = value bytes') :
    bytes = bytes' := by
  have digits := Nat.ofDigits_inj_of_len_eq (b := 256) (by decide)
    (by rw [List.length_map, List.length_map, length])
    (digits_lt bytes) (digits_lt bytes') same
  exact List.map_injective_iff.2 (fun _ _ => UInt8.toNat_inj.1) digits

end Chip8.Octets
