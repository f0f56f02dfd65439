import Chip8.Proofs.Burst
import Mathlib.GroupTheory.OrderOfElement
import Mathlib.Tactic.NormNum.Prime
/-!
# The period of the register

The bits of a register are the coefficients of a polynomial, and a shift multiplies it by the
unknown, modulo the generator. So the register after any number of shifts is a product with what the
polynomial one has become by then (`shifts_eq_product`). That takes the place of most of the shifts
when there are many: to double their number is to take a square (`toNat_shifts_unit`). As for the
generator of the check value, it is primitive: shifts have the order `2 ^ 32 - 1` (`orderOf_turn`),
so that a single bit can be told by how often it was shifted, up to that many (`shifts_one_eq_iff`).
-/

namespace Chip8.Crc32

variable {n m : Nat}

/-- The polynomial one. The highest bit of a register is the constant coefficient. -/
def unit : UInt32 := 0x80000000

/-- A sum of shifts, each shifted once more, to which a polynomial is added or not. -/
def addShift (b sum : UInt32) (bit : Bool) : UInt32 := shift sum ^^^ if bit then b else 0

/-- The product of two polynomials modulo the generator: the bits of the one, from the lowest, say
which shifts of the other are added up. -/
def product (a b : UInt32) : UInt32 := ((List.range 32).map a.toNat.testBit).foldl (addShift b) 0

/-- Zero is shifted to zero. -/
lemma shift_zero : shift 0 = 0 := rfl

/-- Adding up shifts can be shifted as a whole. -/
lemma shift_addShift (b sum : UInt32) (bit : Bool) :
    addShift (shift b) (shift sum) bit = shift (addShift b sum bit) := by
  rw [addShift, addShift, shift_xor, apply_ite shift, shift_zero]

/-- The shift of a product is the product with the shift. -/
lemma shift_product (a b : UInt32) : shift (product a b) = product a (shift b) :=
  (List.foldl_hom shift (shift_addShift b)).symm

/-- The shifts of a product are the product with the shifts. -/
lemma shifts_product (n : Nat) (a b : UInt32) :
    shifts n (product a b) = product a (shifts n b) := by
  induction n generalizing b with
  | zero => rfl
  | succ n ih => rw [shifts, shift_product, ih, shifts]

/-- The lowest bit is shifted out first, so that adding up its shifts is what feeding the bits of a
register does. -/
lemma product_shift_one (a : UInt32) : product a (shift 1) = shifts 32 a := by
  have fed := foldl_feed a.toNat a.toNat_lt (Nat.le_refl 32) 0
  have step : addShift (shift 1) = feed := by
    funext sum bit
    rw [feed_eq_shift, shift_xor, addShift]
    cases bit <;> rfl
  rw [product, step, fed, UInt32.zero_xor, UInt32.ofNat_toNat]

/-- After 32 shifts the polynomial one is what the lowest bit is shifted to. -/
lemma shifts_unit : shifts 32 unit = shift 1 := by decide +kernel

/-- The polynomial one is neutral. -/
lemma product_unit (a : UInt32) : product a unit = a := by
  apply shifts_injective 32
  rw [shifts_product, shifts_unit, product_shift_one]

/-- Shifting is multiplying by what the polynomial one is shifted to. -/
lemma shifts_eq_product (n : Nat) (a : UInt32) : shifts n a = product a (shifts n unit) := by
  rw [← shifts_product, product_unit]

/-! ### Many shifts at once -/

/-- A shift as arithmetic on numbers. -/
def shiftValue (r : Nat) : Nat := if r % 2 = 1 then 0xEDB88320 ^^^ (r / 2) else r / 2

/-- A product as arithmetic on numbers. -/
def productValue (a b : Nat) : Nat :=
  ((List.range 32).map a.testBit).foldl (fun sum bit => shiftValue sum ^^^ if bit then b else 0) 0

/-- What the polynomial one has become after a number of shifts, by squaring. The number is less
than two to the given power. -/
def residue : (places shifts : Nat) → Nat
  | 0, _ => 0x80000000
  | k + 1, n =>
    -- The match has the kernel compute a factor before it goes on with it.
    match residue k (n / 2) with
    | 0 => 0
    | half + 1 =>
      let square := productValue (half + 1) (half + 1)
      if n % 2 = 1 then shiftValue square else square

/-- A shift of registers is the one of their numbers. -/
lemma toNat_shift (r : UInt32) : (shift r).toNat = shiftValue r.toNat := by
  have half := toNat_shiftRight_one r
  have odd : r % 2 = 1 ↔ r.toNat % 2 = 1 := by
    rw [← UInt32.toNat_inj, UInt32.toNat_mod]
    rfl
  rw [shift, shiftValue]
  simp only [odd]
  split
  · rw [UInt32.toNat_xor, half]
    rfl
  · exact half

/-- A product of registers is the one of their numbers. -/
lemma toNat_product (a b : UInt32) : (product a b).toNat = productValue a.toNat b.toNat := by
  refine (List.foldl_hom UInt32.toNat fun sum bit => ?_).symm
  rw [addShift, UInt32.toNat_xor, toNat_shift]
  cases bit <;> rfl

/-- Twice as many shifts of the polynomial one are its square. -/
lemma shifts_double (n : Nat) : shifts (2 * n) unit = product (shifts n unit) (shifts n unit) := by
  rw [Nat.two_mul, shifts_add, shifts_eq_product n (shifts n unit)]

/-- One shift more is made behind the others. -/
lemma shifts_succ (n : Nat) (r : UInt32) : shifts (n + 1) r = shift (shifts n r) :=
  shifts_add n 1 r

/-- The shifts of the polynomial one can be computed by squaring. -/
lemma toNat_shifts_unit {k : Nat} (small : n < 2 ^ k) :
    (shifts n unit).toNat = residue k n := by
  induction k generalizing n with
  | zero =>
    obtain rfl : n = 0 := by omega
    rfl
  | succ k ih =>
    have doubled {v : Nat} (value : residue k (n / 2) = v) : (shifts n unit).toNat =
        if n % 2 = 1 then shiftValue (productValue v v) else productValue v v := by
      have square : (shifts (2 * (n / 2)) unit).toNat = productValue v v := by
        rw [shifts_double, toNat_product, ih (by omega), value]
      split
      case isTrue odd =>
        rw [← square, ← toNat_shift, ← shifts_succ, show 2 * (n / 2) + 1 = n by omega]
      case isFalse even => rw [← square, show 2 * (n / 2) = n by omega]
    rw [residue]
    split
    case h_1 zero =>
      have none_left : productValue 0 0 = 0 := by decide +kernel
      rw [doubled zero, none_left]
      exact ite_self 0
    case h_2 half value => exact doubled value

/-- What the polynomial one becomes is a matter of arithmetic. -/
lemma shifts_unit_eq_iff {k : Nat} (small : n < 2 ^ k) :
    shifts n unit = unit ↔ residue k n = 0x80000000 := by
  rw [← toNat_shifts_unit small, ← UInt32.toNat_inj]
  rfl

/-! ### The order of a shift -/

/-- A shift can be undone. -/
lemma shift_bijective : Function.Bijective shift := by
  have : Finite UInt32 := .of_injective UInt32.toFin fun _ _ => UInt32.toFin_inj.1
  exact Finite.injective_iff_bijective.1 shift_injective

/-- A shift as a permutation of the registers. -/
noncomputable def turn : Equiv.Perm UInt32 := .ofBijective shift shift_bijective

/-- Turning some times is shifting as often. -/
lemma turn_pow (n : Nat) (r : UInt32) : (turn ^ n) r = shifts n r := by
  induction n generalizing r with
  | zero => rfl
  | succ n ih =>
    rw [pow_succ, Equiv.Perm.mul_apply, ih]
    rfl

/-- Numbers of shifts that do the same to the polynomial one do the same to all. -/
lemma turn_pow_eq_iff : turn ^ n = turn ^ m ↔ shifts n unit = shifts m unit := by
  constructor
  · intro same
    rw [← turn_pow, ← turn_pow, same]
  · intro same
    ext r
    rw [turn_pow, turn_pow, shifts_eq_product, same, ← shifts_eq_product]

/-- Whether turning some times is not turning at all can be computed. -/
lemma turn_pow_eq_one_iff {k : Nat} (small : n < 2 ^ k) :
    turn ^ n = 1 ↔ residue k n = 0x80000000 := by
  rw [← pow_zero turn, turn_pow_eq_iff, ← shifts_unit_eq_iff small]
  rfl

/-- The prime divisors of the period. -/
lemma prime_dvd {p : Nat} (prime : p.Prime) (divides : p ∣ 2 ^ 32 - 1) :
    p = 3 ∨ p = 5 ∨ p = 17 ∨ p = 257 ∨ p = 65537 := by
  have factors : 2 ^ 32 - 1 = 3 * 5 * 17 * 257 * 65537 := by norm_num
  rw [factors] at divides
  simp only [prime.dvd_mul, Nat.prime_dvd_prime_iff_eq prime (show Nat.Prime 3 by norm_num),
    Nat.prime_dvd_prime_iff_eq prime (show Nat.Prime 5 by norm_num),
    Nat.prime_dvd_prime_iff_eq prime (show Nat.Prime 17 by norm_num),
    Nat.prime_dvd_prime_iff_eq prime (show Nat.Prime 257 by norm_num),
    Nat.prime_dvd_prime_iff_eq prime (show Nat.Prime 65537 by norm_num), or_assoc] at divides
  exact divides

/-- The generator is primitive: shifts have the greatest order that they could have. -/
lemma orderOf_turn : orderOf turn = 2 ^ 32 - 1 := by
  refine orderOf_eq_of_pow_and_pow_div_prime (by decide) ?_ ?_
  · rw [turn_pow_eq_one_iff (k := 32) (by decide)]
    decide +kernel
  · intro p prime divides
    rw [Ne, turn_pow_eq_one_iff (k := 32)
      (Nat.lt_of_le_of_lt (Nat.div_le_self ..) (by decide))]
    obtain rfl | rfl | rfl | rfl | rfl := prime_dvd prime divides <;> decide +kernel

/-- A bit that has been shifted is where another one is just if the numbers of shifts agree up to
the period. -/
lemma shifts_one_eq_iff : shifts n 1 = shifts m 1 ↔ n ≡ m [MOD 2 ^ 32 - 1] := by
  have one : shifts 31 unit = 1 := by decide +kernel
  rw [← orderOf_turn, ← pow_eq_pow_iff_modEq, turn_pow_eq_iff, ← one, ← shifts_add, ← shifts_add,
    Nat.add_comm 31, Nat.add_comm 31, shifts_add, shifts_add, (shifts_injective 31).eq_iff]

end Chip8.Crc32
