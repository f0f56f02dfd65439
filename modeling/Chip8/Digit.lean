import Chip8.Number
/-!
# Digits

The sixteen hexadecimal digits. They number the byte registers, the keys of the keypad and the
built-in sprites.
-/

namespace Chip8

/-- A hexadecimal digit. -/
abbrev Digit := Fin 16

/-- The number of a register. -/
abbrev Register := Digit

/-- The number of a key. -/
abbrev Key := Digit

namespace Digit

/-- The lowest digit of a number. -/
def ofNat (n : Nat) : Digit := ⟨n % 16, Nat.mod_lt _ (by decide)⟩

/-- The digit that an integer is, if it is one. -/
def ofInt? (n : Int) : Option Digit :=
  if h : 0 ≤ n ∧ n < 16 then some ⟨n.toNat, by omega⟩ else none

/-- The digit that a number is, if it is one. -/
def ofNumber? (n : Number) : Option Digit := n.toInt?.bind ofInt?

/-- The lowest digit of a number is what sixteen leaves of it. -/
theorem val_ofNat (n : Nat) : (ofNat n).val = n % 16 := rfl

/-- A digit can be had of an integer if and only if the integer is its value. -/
theorem ofInt?_eq_some_iff {n : Int} {d : Digit} : ofInt? n = some d ↔ (d.val : Int) = n := by
  unfold ofInt?
  constructor
  · intro h
    split at h
    · cases h
      simp only
      omega
    · cases h
  · rintro rfl
    have hd : (0 : Int) ≤ d.val ∧ (d.val : Int) < 16 := by omega
    rw [dif_pos hd]
    simp

/-- The numbers that are digits are the sixteen integers from zero on. -/
theorem ofNumber?_int (n : Int) : ofNumber? (.finite n) = ofInt? n := by
  simp [ofNumber?, Number.toInt?_finite_int]

end Digit

end Chip8
