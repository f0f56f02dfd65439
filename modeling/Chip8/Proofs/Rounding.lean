import Chip8.Number.Read
import Mathlib.Algebra.Group.Nat.Defs
import Mathlib.Tactic.Lemma
/-!
# Natural numbers in double precision

The double nearest to a natural number is a natural number again (`Number.rounded`), unless it is
out of range and becomes infinite (`binary64_nat`). It is positive if the number is, and the number
itself up to `2 ^ 53` (`rounded_of_le`). Digits are read as the double nearest to what they say,
however many there are (`ofDecimal_nat`).
-/

namespace Chip8.Number

variable {m n s k num den : Nat}

/-- The natural number that comes of rounding one to 53 significant bits. -/
def rounded (n : Nat) : Nat := divHalfEven n (2 ^ (n.log2 - 52)) * 2 ^ (n.log2 - 52)

/-- A quotient by one is not rounded. -/
lemma divHalfEven_one (n : Nat) : divHalfEven n 1 = n := by
  simp [divHalfEven, Nat.mod_one]

/-- Rounding a quotient never goes below its whole part. -/
lemma le_divHalfEven (num den : Nat) : num / den ≤ divHalfEven num den := by
  simp only [divHalfEven]
  split
  · exact Nat.le_refl _
  · exact Nat.le_succ _

/-- Rounding a quotient goes up by one at most. -/
lemma divHalfEven_le (num den : Nat) : divHalfEven num den ≤ num / den + 1 := by
  simp only [divHalfEven]
  split
  · exact Nat.le_succ _
  · exact Nat.le_refl _

/-- What is less than half a divisor away from a multiple is rounded to it. -/
lemma divHalfEven_eq (below : 2 * (m * den) < 2 * num + den)
    (above : 2 * num < 2 * (m * den) + den) : divHalfEven num den = m := by
  have parts : den * (num / den) + num % den = num := Nat.div_add_mod num den
  have rest : num % den < den := Nat.mod_lt num (by omega)
  simp only [divHalfEven]
  generalize num / den = q at *
  generalize num % den = r at *
  obtain less | rfl | rfl | more : m < q ∨ m = q ∨ m = q + 1 ∨ q + 2 ≤ m := by omega
  · have := Nat.mul_le_mul_left den (show m + 1 ≤ q from less)
    grind
  · grind
  · grind
  · have := Nat.mul_le_mul_left den more
    grind

/-- An even number is reached from halfway below it on. -/
lemma le_divHalfEven_iff (even : m % 2 = 0) (some_ : 0 < m) (positive : 0 < den) :
    m ≤ divHalfEven num den ↔ 2 * (m * den) ≤ 2 * num + den := by
  have parts : den * (num / den) + num % den = num := Nat.div_add_mod num den
  have rest : num % den < den := Nat.mod_lt num positive
  simp only [divHalfEven]
  generalize num / den = q at *
  generalize num % den = r at *
  obtain le | rfl | more : m ≤ q ∨ m = q + 1 ∨ q + 2 ≤ m := by omega
  · have := Nat.mul_le_mul_left den le
    grind
  · grind
  · have := Nat.mul_le_mul_left den more
    grind

/-- Below the limit every natural number is a double. -/
lemma rounded_of_lt (h : n < 2 ^ 53) : rounded n = n := by
  have excess : n.log2 - 52 = 0 := by
    obtain rfl | positive := Nat.eq_zero_or_pos n
    · rfl
    · have := (Nat.log2_lt (Nat.ne_of_gt positive)).2 h
      omega
  rw [rounded, excess, Nat.pow_zero, divHalfEven_one, Nat.mul_one]

/-- Up to `2 ^ 53` nothing is rounded. -/
lemma rounded_of_le (h : n ≤ 2 ^ 53) : rounded n = n := by
  obtain less | rfl := Nat.lt_or_eq_of_le h
  · exact rounded_of_lt less
  · decide +kernel

/-- Rounding does not go below a power of two. -/
lemma le_rounded (positive : 0 < n) : 2 ^ n.log2 ≤ rounded n := by
  have whole : 2 ^ n.log2 ≤ n := Nat.log2_self_le (Nat.ne_of_gt positive)
  by_cases small : n < 2 ^ 53
  · rwa [rounded_of_lt small]
  · have large : 53 ≤ n.log2 :=
      Nat.le_of_not_lt fun less => small ((Nat.log2_lt (Nat.ne_of_gt positive)).1 less)
    have parts : 2 ^ n.log2 = 2 ^ 52 * 2 ^ (n.log2 - 52) := by
      rw [← Nat.pow_add]
      congr 1
      omega
    have mantissa : 2 ^ 52 ≤ n / 2 ^ (n.log2 - 52) := by
      rw [Nat.le_div_iff_mul_le (Nat.two_pow_pos _), ← parts]
      exact whole
    rw [parts, rounded]
    exact Nat.mul_le_mul_right _ (Nat.le_trans mantissa (le_divHalfEven _ _))

/-- Positive numbers are not rounded to zero. -/
lemma rounded_pos (positive : 0 < n) : 0 < rounded n :=
  Nat.lt_of_lt_of_le (Nat.two_pow_pos _) (le_rounded positive)

/-- Powers of two. -/
lemma twoTo_eq (n : Nat) : twoTo n = 2 ^ n := rfl

/-- Powers of two are positive. -/
lemma twoTo_pos (n : Nat) : 0 < twoTo n := Nat.two_pow_pos n

/-- What is at least a power of two is still so when rounded. -/
lemma twoTo_le_rounded {k : Nat} (h : twoTo k ≤ n) : twoTo k ≤ rounded n := by
  have positive : 0 < n := Nat.lt_of_lt_of_le (twoTo_pos k) h
  have exponent : k ≤ n.log2 := (Nat.le_log2 (Nat.ne_of_gt positive)).2 h
  exact Nat.le_trans (Nat.pow_le_pow_right (by decide) exponent) (le_rounded positive)

/-- Rounding does not go beyond a power of two. -/
lemma rounded_le (h : n < 2 ^ k) : rounded n ≤ 2 ^ k := by
  by_cases small : n < 2 ^ 53
  · rw [rounded_of_lt small]
    exact Nat.le_of_lt h
  · have some_ : n ≠ 0 := by omega
    have large : 53 ≤ n.log2 := (Nat.le_log2 some_).2 (Nat.le_of_not_lt small)
    have within : n.log2 < k := (Nat.log2_lt some_).2 h
    have parts : 2 ^ k = 2 ^ (k - (n.log2 - 52)) * 2 ^ (n.log2 - 52) := by
      rw [← Nat.pow_add]
      congr 1
      omega
    have mantissa : n / 2 ^ (n.log2 - 52) < 2 ^ (k - (n.log2 - 52)) := by
      rwa [Nat.div_lt_iff_lt_mul (Nat.two_pow_pos _), ← parts]
    rw [rounded, parts]
    exact Nat.mul_le_mul_right _ (Nat.le_trans (divHalfEven_le _ _) mantissa)

/-- Rounding a number drops as many bits as it has above 53. -/
lemma rounded_of_log2 (h : n.log2 = s + 52) : rounded n = divHalfEven n (2 ^ s) * 2 ^ s := by
  rw [rounded, h, Nat.add_sub_cancel]

/-- The bits of a number above 53, in terms of its size. -/
lemma log2_eq_add_iff (some_ : n ≠ 0) :
    n.log2 = s + 52 ↔ 2 ^ 52 * 2 ^ s ≤ n ∧ n < 2 ^ 53 * 2 ^ s := by
  rw [Nat.log2_eq_iff some_, ← Nat.pow_add, ← Nat.pow_add, Nat.add_comm 52, Nat.add_comm 53]

/-- A mantissa of 53 bits is kept. -/
lemma rounded_mul (low : 2 ^ 52 ≤ m) (high : m < 2 ^ 53) : rounded (m * 2 ^ s) = m * 2 ^ s := by
  have unit : 0 < 2 ^ s := Nat.two_pow_pos s
  have least : 2 ^ 52 * 2 ^ s ≤ m * 2 ^ s := Nat.mul_le_mul_right _ low
  have greatest : m * 2 ^ s < 2 ^ 53 * 2 ^ s := (Nat.mul_lt_mul_right unit).2 high
  have place : (m * 2 ^ s).log2 = s + 52 := (log2_eq_add_iff (by omega)).2 ⟨least, greatest⟩
  rw [rounded_of_log2 place, divHalfEven_eq (m := m) (by omega) (by omega)]

/-- What has been rounded is not rounded any further. -/
lemma rounded_rounded (n : Nat) : rounded (rounded n) = rounded n := by
  by_cases small : n < 2 ^ 53
  · rw [rounded_of_lt small, rounded_of_lt small]
  · have some_ : n ≠ 0 := by omega
    have large : 53 ≤ n.log2 := (Nat.le_log2 some_).2 (Nat.le_of_not_lt small)
    obtain ⟨s, place⟩ : ∃ s, n.log2 = s + 52 := ⟨n.log2 - 52, by omega⟩
    obtain ⟨low, high⟩ := (log2_eq_add_iff some_).1 place
    have unit : 0 < 2 ^ s := Nat.two_pow_pos s
    have least := (Nat.le_div_iff_mul_le unit).2 low
    have greatest := (Nat.div_lt_iff_lt_mul unit).2 high
    have down := le_divHalfEven n (2 ^ s)
    have up := divHalfEven_le n (2 ^ s)
    rw [rounded_of_log2 place]
    generalize divHalfEven n (2 ^ s) = m at down up
    obtain less | rfl : m < 2 ^ 53 ∨ m = 2 ^ 53 := by omega
    · exact rounded_mul (Nat.le_trans least down) less
    · -- The mantissa has been rounded up to the next power of two.
      rw [show 2 ^ 53 * 2 ^ s = 2 ^ 52 * 2 ^ (s + 1) by rw [Nat.pow_succ 2 s]; omega]
      exact rounded_mul (Nat.le_refl _) (by decide)

/-- What is less than half a unit of the last place away from a double is rounded to it, unless the
double is a power of two. -/
lemma rounded_eq_of_near (low : 2 ^ 52 < m) (high : m < 2 ^ 53)
    (below : 2 * (m * 2 ^ s) < 2 * n + 2 ^ s) (above : 2 * n < 2 * (m * 2 ^ s) + 2 ^ s) :
    rounded n = m * 2 ^ s := by
  have least : (2 ^ 52 + 1) * 2 ^ s ≤ m * 2 ^ s := Nat.mul_le_mul_right _ low
  have greatest : (m + 1) * 2 ^ s ≤ 2 ^ 53 * 2 ^ s := Nat.mul_le_mul_right _ high
  rw [Nat.add_mul] at greatest
  have unit : 0 < 2 ^ s := Nat.two_pow_pos s
  have place : n.log2 = s + 52 := (log2_eq_add_iff (by omega)).2 (by omega)
  rw [rounded_of_log2 place, divHalfEven_eq below above]

/-- A double with an even mantissa is reached from halfway below it on. -/
lemma le_rounded_iff (even : m % 2 = 0) (low : 2 ^ 52 < m) (high : m ≤ 2 ^ 53) :
    m * 2 ^ s ≤ rounded n ↔ 2 * (m * 2 ^ s) ≤ 2 * n + 2 ^ s := by
  have least : (2 ^ 52 + 1) * 2 ^ s ≤ m * 2 ^ s := Nat.mul_le_mul_right _ low
  have greatest : m * 2 ^ s ≤ 2 ^ 53 * 2 ^ s := Nat.mul_le_mul_right _ high
  have unit : 0 < 2 ^ s := Nat.two_pow_pos s
  obtain place | small | large : n.log2 = s + 52 ∨ n < 2 ^ (s + 52) ∨ 2 ^ (s + 53) ≤ n := by
    by_cases some_ : n = 0
    · exact .inr (.inl (some_ ▸ Nat.two_pow_pos _))
    · have next : 2 ^ (s + 53) = 2 ^ (s + 52 + 1) := rfl
      rw [Nat.log2_eq_iff some_, next]
      omega
  · rw [rounded_of_log2 place, Nat.mul_le_mul_right_iff unit,
      le_divHalfEven_iff even (by omega) unit]
  · have := rounded_le small
    rw [Nat.pow_add, Nat.mul_comm] at small this
    omega
  · have := twoTo_le_rounded large
    rw [twoTo_eq] at this
    rw [Nat.pow_add, Nat.mul_comm] at large this
    omega

/-- A power of two is reached from half a unit of the last place below it on. -/
lemma twoPow_le_rounded_iff (s : Nat) : 2 ^ (s + 54) ≤ rounded n ↔ 2 ^ (s + 54) - 2 ^ s ≤ n := by
  have edge := le_rounded_iff (m := 2 ^ 53) (s := s + 1) (n := n) rfl (by decide) (Nat.le_refl _)
  have parts : 2 ^ 53 * 2 ^ (s + 1) = 2 ^ (s + 54) := by
    rw [← Nat.pow_add, Nat.add_comm 53, Nat.add_assoc]
  rw [← parts, edge, Nat.pow_succ]
  omega

/-- Numbers are out of range from halfway between the greatest double and `2 ^ 1024` on. -/
lemma twoTo_le_rounded_iff : twoTo 1024 ≤ rounded n ↔ 2 ^ 1024 - 2 ^ 970 ≤ n := by
  rw [twoTo_eq, show 1024 = 970 + 54 from rfl]
  exact twoPow_le_rounded_iff 970

/-- Greater exponents have greater powers. -/
lemma twoTo_lt {k : Nat} (h : n < k) : twoTo n < twoTo k := Nat.pow_lt_pow_right (by decide) h

/-- The binary logarithm of a natural number. -/
lemma floorLog2_nat (positive : 0 < n) : floorLog2 n 1 = n.log2 := by
  have up : ((n.log2 : Int) - (Nat.log2 1 : Nat)).toNat = n.log2 := by
    rw [show Nat.log2 1 = 0 from rfl]
    omega
  have down : (-((n.log2 : Int) - (Nat.log2 1 : Nat))).toNat = 0 := by
    rw [show Nat.log2 1 = 0 from rfl]
    omega
  rw [floorLog2, up, down, twoTo_eq, twoTo_eq, Nat.one_mul, Nat.pow_zero, Nat.mul_one,
    if_pos (Nat.log2_self_le (Nat.ne_of_gt positive)), show Nat.log2 1 = 0 from rfl]
  omega

/-- The mantissa and the exponent of a natural number in double precision. -/
lemma roundMagnitude_nat (positive : 0 < n) :
    ∃ m e, roundMagnitude n 1 = (m, e) ∧ m * 2 ^ e.toNat = rounded n * 2 ^ (-e).toNat := by
  have scale : max (floorLog2 n 1 - 52) (-1074) = (n.log2 : Int) - 52 := by
    rw [floorLog2_nat positive]
    omega
  have up : ((n.log2 : Int) - 52).toNat = n.log2 - 52 := by omega
  have down : (-((n.log2 : Int) - 52)).toNat = 52 - n.log2 := by omega
  refine ⟨_, _, rfl, ?_⟩
  simp only [scale, up, down, twoTo_eq, Nat.one_mul, rounded]
  -- Either there are bits to be rounded away, or places to be filled.
  obtain excess | lack : 52 - n.log2 = 0 ∨ n.log2 - 52 = 0 := by omega
  · rw [excess, Nat.pow_zero, Nat.mul_one, Nat.mul_one]
  · simp only [lack, Nat.pow_zero, divHalfEven_one, Nat.mul_one]

/-- A natural number can be told from its mantissa and exponent. -/
lemma scaled_nat {m k : Nat} {e : Int} (value : m * 2 ^ e.toNat = k * 2 ^ (-e).toNat) :
    scaled m e = k := by
  have places : 2 ^ (-e).toNat ≠ 0 := Nat.ne_of_gt (Nat.two_pow_pos _)
  have cancel := Rat.mkRat_mul_right (n := k) (d := 1) places
  rw [Nat.one_mul] at cancel
  rw [scaled, twoTo_eq, twoTo_eq, ← Int.natCast_mul, value, Int.natCast_mul, cancel, Rat.mkRat_one]
  rfl

/-- A natural number in double precision. -/
lemma binary64_nat (n : Nat) :
    binary64 n = if twoTo 1024 ≤ rounded n then infinite false else finite (rounded n) := by
  obtain rfl | positive := Nat.eq_zero_or_pos n
  · rw [rounded_of_lt (by decide), if_neg (Nat.not_le.2 (twoTo_pos _))]
    rfl
  · obtain ⟨m, e, magnitude, value⟩ := roundMagnitude_nat positive
    have some_ : (n : Rat) ≠ 0 := fun zero => Nat.ne_of_gt positive (Rat.natCast_inj.1 zero)
    have signless : ¬ (n : Rat) < 0 := Rat.not_lt.2 Rat.natCast_nonneg
    have whole : m * 2 ^ e.toNat / 2 ^ (-e).toNat = rounded n := by
      rw [value, Nat.mul_div_cancel _ (Nat.two_pow_pos _)]
    simp only [binary64, if_neg some_, Rat.num_natCast, Int.natAbs_natCast, Rat.den_natCast,
      magnitude, twoTo_eq _, whole, if_neg signless, decide_eq_false signless, scaled_nat value]

/-- A natural number is rounded to a finite double if it is below the limit of overflow. -/
lemma binary64_eq_finite_iff {q : Rat} :
    binary64 n = .finite q ↔ n < 2 ^ 1024 - 2 ^ 970 ∧ q = rounded n := by
  rw [binary64_nat]
  by_cases far : twoTo 1024 ≤ rounded n
  · rw [if_pos far]
    exact iff_of_false nofun fun ⟨near, _⟩ => Nat.not_lt.2 (twoTo_le_rounded_iff.1 far) near
  · have near := Nat.lt_of_not_le (mt twoTo_le_rounded_iff.2 far)
    rw [if_neg far, and_iff_right near, finite.injEq, eq_comm]

/-- Up to `2 ^ 53` a number is a double. -/
lemma binary64_of_le (h : n ≤ 2 ^ 53) : binary64 n = finite n := by
  have range : n < twoTo 1024 := Nat.lt_of_le_of_lt h (twoTo_lt (n := 53) (by decide))
  rw [binary64_nat, rounded_of_le h, if_neg (Nat.not_le.2 range)]

/-- A number has at most some digits if and only if it is below that power of ten. -/
lemma length_decimal_le_iff {k : Nat} (positive : 0 < k) :
    (decimal n).length ≤ k ↔ n < tenTo k :=
  Nat.length_toDigits_le_iff (by decide) positive

/-- Numbers of more than 310 digits are out of range. -/
lemma binary64_of_long (long : 310 < (decimal n).length) : binary64 n = infinite false := by
  have digits : tenTo 310 ≤ n :=
    Nat.le_of_not_lt fun less => Nat.not_le.2 long ((length_decimal_le_iff (by decide)).2 less)
  have large : twoTo 1024 ≤ n := Nat.le_trans (by decide +kernel) digits
  rw [binary64_nat, if_pos (twoTo_le_rounded large)]

/-- A number without an exponent is that number. -/
lemma decimalScaled_nat (n : Nat) : decimalScaled n 0 = n := by
  change mkRat ((n * 1 : Nat) : Int) 1 = n
  rw [Nat.mul_one, Rat.mkRat_one]
  rfl

/-- Digits are read as the double nearest to their value. -/
lemma ofDecimal_nat (n : Nat) : ofDecimal false n 0 = binary64 n := by
  simp only [ofDecimal, Int.zero_add, Bool.false_eq_true, if_false, decimalScaled_nat]
  split
  case isTrue zero =>
    rw [zero]
    rfl
  case isFalse =>
    split
    case isTrue long => exact (binary64_of_long (Int.ofNat_lt.1 long)).symm
    case isFalse =>
      exact if_neg (by omega)

end Chip8.Number
