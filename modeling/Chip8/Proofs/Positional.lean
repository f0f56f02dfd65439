import Chip8.Proofs.Precedence
import Mathlib.Data.Rat.Floor
/-!
# Whole numbers in text

A whole double below `10 ^ 21` is found on a grid of whole numbers (`exists_onGrid`): with all of
its digits if there are at most seventeen, and else with seventeen, as the units of last places are
larger than the steps of the grid then. It is written with digits alone for that reason, and a
larger one is written with an exponent, so that the text of a whole double is a numeral exactly
below `10 ^ 21` (`isBudget_text_iff`).
-/

namespace Chip8

namespace Number

variable {k d e n m s p : Nat}

/-- Every number has some digits. -/
lemma length_decimal_pos (n : Nat) : 0 < (decimal n).length :=
  List.length_pos_iff.2 Nat.toDigits_ne_nil

/-- A number reaches the power of ten that its first digit stands for. -/
lemma tenPow_le (positive : 0 < k) : 10 ^ ((decimal k).length - 1) ≤ k := by
  have some_ := length_decimal_pos k
  obtain one | more : (decimal k).length = 1 ∨ 0 < (decimal k).length - 1 := by omega
  · rw [one]
    exact positive
  · refine Nat.le_of_not_lt fun less => ?_
    have short := (length_decimal_le_iff more).2 less
    omega

/-- The decimal logarithm of a number is one less than its number of digits. -/
lemma floorLog10_nat (positive : 0 < k) : floorLog10 k 1 + 1 = (decimal k).length := by
  have some_ := length_decimal_pos k
  have one : (decimal 1).length = 1 := rfl
  have up : (((decimal k).length : Int) - (decimal 1).length).toNat = (decimal k).length - 1 := by
    omega
  have down : (-(((decimal k).length : Int) - (decimal 1).length)).toNat = 0 := by omega
  rw [floorLog10, up, down, tenTo_eq, tenTo_eq, Nat.one_mul, Nat.pow_zero, Nat.mul_one,
    if_pos (tenPow_le positive)]
  omega

/-- A number with powers of ten at its end. -/
lemma decimalScaled_natCast (d e : Nat) : decimalScaled d e = (d * 10 ^ e : Nat) :=
  decimalScaled_eq (by simp [tenTo_eq])

/-- A decimal has at most twenty-one places exactly if it is below `10 ^ 21`. -/
lemma length_add_le_iff (some_ : 0 < d) : (decimal d).length + e ≤ 21 ↔ d * 10 ^ e < 10 ^ 21 := by
  obtain small | large := Nat.lt_or_ge e 21
  · have parts : 10 ^ 21 = 10 ^ (21 - e) * 10 ^ e := by
      rw [← Nat.pow_add, Nat.sub_add_cancel (Nat.le_of_lt small)]
    rw [parts, Nat.mul_lt_mul_right (Nat.pow_pos (by decide)), ← tenTo_eq,
      ← length_decimal_le_iff (by omega)]
    omega
  · have digits := length_decimal_pos d
    have power : 10 ^ 21 ≤ d * 10 ^ e :=
      Nat.le_trans (Nat.pow_le_pow_right (by decide) large) (Nat.le_mul_of_pos_left _ some_)
    omega

/-- The multiple of a power of ten below a natural number. -/
lemma below_nat (k e : Nat) :
    (mkRat ((k : Rat).num.natAbs * tenTo (-(e : Int)).toNat)
      ((k : Rat).den * tenTo (e : Int).toNat)).floor.toNat = k / 10 ^ e := by
  have down : (-(e : Int)).toNat = 0 := by omega
  have numerator : ((k : Rat).num.natAbs * tenTo (-(e : Int)).toNat : Int) = k := by
    rw [down, Rat.num_natCast, Int.natAbs_natCast, tenTo_eq, Nat.pow_zero, Nat.cast_one,
      Int.mul_one]
  have denominator : (k : Rat).den * tenTo (e : Int).toNat = 10 ^ e := by
    rw [Rat.den_natCast, Nat.one_mul, Int.toNat_natCast, tenTo_eq]
  rw [numerator, denominator, Rat.mkRat_eq_div]
  exact congrArg Int.toNat (Rat.floor_intCast_div_natCast k (10 ^ e))

/-- A natural number is found on the grid of a power of ten exactly if one of the multiples beside
it reads back, and nothing smaller than these is found. -/
lemma onGrid_nat (k e : Nat) :
    ((onGrid? k e).isSome ↔ binary64 (k / 10 ^ e * 10 ^ e : Nat) = finite k ∨
      binary64 ((k / 10 ^ e + 1) * 10 ^ e : Nat) = finite k) ∧
    ∀ d, onGrid? k e = some d → k / 10 ^ e ≤ d := by
  simp only [onGrid?, below_nat, decimalScaled_natCast, Bool.and_eq_true, decide_eq_true_eq]
  generalize k / 10 ^ e = below
  split
  case isTrue both =>
    refine ⟨iff_of_true rfl (.inl both.1), fun d found => ?_⟩
    rw [← Option.some.inj found]
    split
    · exact Nat.le_refl _
    · exact Nat.le_succ _
  case isFalse =>
    split
    case isTrue low =>
      exact ⟨iff_of_true rfl (.inl low), fun d found => Nat.le_of_eq (Option.some.inj found)⟩
    case isFalse low =>
      split
      case isTrue high =>
        refine ⟨iff_of_true rfl (.inr high), fun d found => ?_⟩
        rw [← Option.some.inj found]
        exact Nat.le_succ _
      case isFalse high =>
        refine ⟨iff_of_false Bool.false_ne_true (not_or_intro low high), fun d found => ?_⟩
        exact absurd found.symm (Option.some_ne_none d)

/-- A double from `2 ^ 52` on is a multiple of the unit of its last place. -/
lemma exists_mantissa (double : rounded k = k) (large : 2 ^ 52 ≤ k) :
    ∃ m s, k = m * 2 ^ s ∧ 2 ^ 52 ≤ m ∧ m < 2 ^ 53 := by
  have some_ : k ≠ 0 := by omega
  have place : 52 ≤ k.log2 := (Nat.le_log2 some_).2 large
  obtain ⟨s, exponent⟩ : ∃ s, k.log2 = s + 52 := ⟨k.log2 - 52, by omega⟩
  obtain ⟨low, high⟩ := (log2_eq_add_iff some_).1 exponent
  have same : k = divHalfEven k (2 ^ s) * 2 ^ s := double.symm.trans (rounded_of_log2 exponent)
  rw [same] at low high
  have unit : 0 < 2 ^ s := Nat.two_pow_pos s
  exact ⟨_, s, same, (Nat.mul_le_mul_right_iff unit).1 low, (Nat.mul_lt_mul_right unit).1 high⟩

/-- If the steps of a grid are smaller than the unit of the last place of a double, one of the two
places beside the double is rounded to it, unless it is a power of two. -/
lemma rounded_beside {grid : Nat} (low : 2 ^ 52 < m) (high : m < 2 ^ 53) (some_ : 0 < grid)
    (fine : grid < 2 ^ s) : rounded (m * 2 ^ s / grid * grid) = m * 2 ^ s ∨
      rounded ((m * 2 ^ s / grid + 1) * grid) = m * 2 ^ s := by
  have parts : m * 2 ^ s / grid * grid + m * 2 ^ s % grid = m * 2 ^ s := Nat.div_add_mod' _ _
  have rest : m * 2 ^ s % grid < grid := Nat.mod_lt _ some_
  rw [Nat.add_mul, Nat.one_mul]
  by_cases near : 2 * (m * 2 ^ s % grid) < 2 ^ s
  · exact .inl (rounded_eq_of_near low high (by omega) (by omega))
  · exact .inr (rounded_eq_of_near low high (by omega) (by omega))

/-- A rational between naturals that are rounded to it is rounded as they are. -/
lemma binary64_of_rounded (h : rounded n = k) (range : k < 2 ^ 70) : binary64 n = finite k := by
  have limit : k < twoTo 1024 := Nat.lt_trans range (twoTo_lt (n := 70) (by decide))
  rw [binary64_nat, h, if_neg (Nat.not_le.2 limit)]

/-- The powers of two have nearer neighbours below, but seventeen digits tell them apart too. -/
lemma isSome_onGrid_twoPow (low : 5 ≤ s) (high : s ≤ 17) :
    (onGrid? (2 ^ 52 * 2 ^ s : Nat) ((decimal (2 ^ 52 * 2 ^ s)).length - 17 : Nat)).isSome := by
  have all : ∀ s ∈ List.range' 5 13,
      (onGrid? (2 ^ 52 * 2 ^ s : Nat) ((decimal (2 ^ 52 * 2 ^ s)).length - 17 : Nat)).isSome := by
    decide +kernel
  exact all s (List.mem_range'_1.2 (by omega))

/-- Seventeen digits tell a double of more digits from every other. -/
lemma isSome_onGrid_seventeen (double : rounded k = k) (long : 17 < (decimal k).length)
    (short : (decimal k).length ≤ 21) : (onGrid? k ((decimal k).length - 17 : Nat)).isSome := by
  have positive : 0 < k := by
    rcases k with _ | k
    · exact absurd long (by decide)
    · exact Nat.succ_pos k
  have first := tenPow_le positive
  have low : 10 ^ 17 ≤ k := Nat.le_trans (Nat.pow_le_pow_right (by decide) (by omega)) first
  have high : k < 10 ^ 21 := (length_decimal_le_iff (by decide)).1 short
  have steps : 10 ^ ((decimal k).length - 17) * 10 ^ 16 ≤ k := by
    rwa [← Nat.pow_add, show (decimal k).length - 17 + 16 = (decimal k).length - 1 by omega]
  clear first
  obtain ⟨m, s, rfl, least, greatest⟩ := exists_mantissa double (by omega)
  have below := Nat.mul_lt_mul_of_pos_right greatest (Nat.two_pow_pos s)
  obtain rfl | more := Nat.eq_or_lt_of_le least
  · refine isSome_onGrid_twoPow ?_ ?_
    · by_contra less
      have power := Nat.pow_le_pow_right (show 0 < 2 by decide) (show s ≤ 4 by omega)
      omega
    · by_contra more
      have power := Nat.pow_le_pow_right (show 0 < 2 by decide) (show 18 ≤ s by omega)
      omega
  · -- The number has more than sixteen digits above the grid, and `2 ^ 53` has sixteen.
    have fine : 10 ^ ((decimal (m * 2 ^ s)).length - 17) < 2 ^ s := by omega
    have range : m * 2 ^ s < 2 ^ 70 := by omega
    rw [(onGrid_nat _ _).1]
    exact (rounded_beside more greatest (Nat.pow_pos (by decide)) fine).imp
      (binary64_of_rounded · range) (binary64_of_rounded · range)

/-- A whole double below `10 ^ 21` is found on a grid of whole numbers. -/
lemma exists_onGrid (double : rounded k = k) (high : k < 10 ^ 21) :
    ∃ p, 0 < p ∧ p ≤ 17 ∧ ∃ e : Nat, (decimal k).length = e + p ∧ (onGrid? k e).isSome := by
  have short : (decimal k).length ≤ 21 := (length_decimal_le_iff (by decide)).2 high
  obtain many | few := Nat.lt_or_ge 17 (decimal k).length
  · exact ⟨17, by decide, Nat.le_refl _, _, by omega, isSome_onGrid_seventeen double many short⟩
  · refine ⟨_, length_decimal_pos k, few, 0, (Nat.zero_add _).symm, (onGrid_nat k 0).1.2 (.inl ?_)⟩
    rw [Nat.pow_zero, Nat.div_one, Nat.mul_one]
    exact binary64_of_rounded double (by omega)

/-- The shortest text of a natural number is looked for from as many digits as it has. -/
lemma shortest_nat (k : Nat) : shortest k = shortestFrom k (floorLog10 k 1) 16 1 := by
  rw [shortest, Rat.num_natCast, Int.natAbs_natCast, Rat.den_natCast]

/-- The search for a decimal gives one that lies on its grid, unless it gives none. -/
lemma onGrid_of_shortest {e : Int} (positive : 0 < k) (found : shortest k = (d, e))
    (some_ : d ≠ 0) : ∃ p, p ≤ 17 ∧ (decimal k).length = e + p ∧ onGrid? k e = some d := by
  have top := floorLog10_nat positive
  rw [shortest_nat] at found
  obtain ⟨p, d', -, few, grid, -, same⟩ | ⟨-, zero⟩ := shortestFrom_cases k (floorLog10 k 1) 16 1
  · cases found.symm.trans same
    exact ⟨p, by omega, by omega, grid⟩
  · rw [found] at zero
    exact absurd zero some_

/-- The search does not go beyond a grid on which the number is found. -/
lemma exists_shortest (positive : 0 < k) (some_ : 0 < p) (few : p ≤ 17)
    (place : (decimal k).length = e + p) (grid : (onGrid? k e).isSome) :
    ∃ d e' : Nat, shortest k = (d, (e' : Int)) ∧ onGrid? k e' = some d := by
  have top := floorLog10_nat positive
  have here : onGrid? k (floorLog10 k 1 + 1 - p) ≠ none := by
    rw [show floorLog10 k 1 + 1 - p = e by omega]
    exact Option.isSome_iff_ne_none.1 grid
  obtain ⟨p', d, -, -, found, first, same⟩ | ⟨missing, -⟩ :=
    shortestFrom_cases k (floorLog10 k 1) 16 1
  · have le : p' ≤ p := Nat.le_of_not_lt fun later => here (first p some_ later)
    rw [show floorLog10 k 1 + 1 - p' = ((e + p - p' : Nat) : Int) by omega] at found same
    exact ⟨d, _, (shortest_nat k).trans same, found⟩
  · exact absurd (missing p some_ (by omega)) here

/-- The text of a positive number is that of its digits. -/
lemma text_nat (positive : 0 < k) : (finite k).text = String.ofList (positiveText k) := by
  have some_ : (k : Rat) ≠ 0 := fun zero => Nat.ne_of_gt positive (Rat.natCast_inj.1 zero)
  rw [text, if_neg some_, if_neg (Rat.not_lt.2 Rat.natCast_nonneg)]

/-- A whole decimal of at most twenty-one places is written with its digits. -/
lemma positiveText_eq {q : Rat} (found : shortest q = (d, (e : Int)))
    (short : (decimal d).length + e ≤ 21) :
    positiveText q = decimal d ++ List.replicate e '0' := by
  have parts := append_dropZeros (decimal d)
  rcases kept : dropZeros (decimal d) with ⟨digits, zeros⟩
  simp only [kept] at parts
  have length : (decimal d).length = digits.length + zeros := by
    rw [← parts, List.length_append, List.length_replicate]
  have fits : (digits.length : Int) ≤ digits.length + zeros + e ∧
      (digits.length + zeros + e : Int) ≤ 21 := by
    omega
  have places : (digits.length + zeros + e - digits.length : Int).toNat = zeros + e := by omega
  have whole : layOut digits (digits.length + zeros + e) =
      digits ++ List.replicate (zeros + e) '0' := by
    rw [← places]
    exact if_pos fits
  simp only [positiveText, found, kept]
  rw [whole, List.replicate_add, ← List.append_assoc, parts]

/-- A number is rounded to a double below `10 ^ 21` unless it is at least halfway to `10 ^ 21`. -/
lemma tenPow_le_rounded_iff : 10 ^ 21 ≤ rounded n ↔ 10 ^ 21 - 65536 ≤ n := by
  have edge := le_rounded_iff (m := 7629394531250000) (s := 17) (n := n) rfl (by decide) (by decide)
  omega

/-- A number whose text is a numeral has no exponent. -/
lemma lt_of_denotes_text (positive : 0 < k) (h : Denotes (finite k).text n) (some_ : 0 < n) :
    k < 10 ^ 21 := by
  rw [text_nat positive] at h
  rcases found : shortest k with ⟨d, e⟩
  obtain ⟨short, value⟩ := value_of_denotes_positiveText h found
  have digits : d ≠ 0 := by
    rintro rfl
    have powers : 0 < tenTo (-e).toNat := Nat.pow_pos (by decide)
    exact Nat.ne_of_lt (Nat.mul_pos some_ powers) (value ▸ (Nat.zero_mul _).symm)
  obtain ⟨p, few, place, grid⟩ := onGrid_of_shortest positive found digits
  by_contra large
  have long : 21 < (decimal k).length :=
    Nat.lt_of_not_le fun le => large ((length_decimal_le_iff (by decide)).1 le)
  lift e to Nat using by omega
  have low := (length_add_le_iff (e := e) (Nat.pos_of_ne_zero digits)).1 (by omega)
  -- What is found is not below the number's own multiple, which reaches `10 ^ 21` with it.
  have parts : 10 ^ 21 = 10 ^ (21 - e) * 10 ^ e := by
    rw [← Nat.pow_add, Nat.sub_add_cancel (by omega)]
  have multiple : 10 ^ (21 - e) ≤ k / 10 ^ e := by
    rw [Nat.le_div_iff_mul_le (Nat.pow_pos (by decide)), ← parts]
    exact Nat.le_of_not_lt large
  have reached := Nat.mul_le_mul_right (10 ^ e) (Nat.le_trans multiple ((onGrid_nat k e).2 d grid))
  omega

/-- A positive double with few digits has a numeral for its text. -/
lemma exists_denotes_text (positive : 0 < k) (double : rounded k = k) (low : k < 10 ^ 21) :
    ∃ n, Denotes (finite k).text n ∧ 0 < n := by
  obtain ⟨p, some_, few, e, place, grid⟩ := exists_onGrid double low
  obtain ⟨d, e, found, grid⟩ := exists_shortest positive some_ few place grid
  have reads := binary64_of_onGrid grid
  rw [decimalScaled_natCast, binary64_eq_finite_iff, Rat.natCast_inj] at reads
  have digits : 0 < d := by
    refine Nat.pos_of_ne_zero ?_
    rintro rfl
    rw [Nat.zero_mul] at reads
    exact Nat.ne_of_gt positive reads.2
  have short : d * 10 ^ e < 10 ^ 21 := by
    have edge := tenPow_le_rounded_iff (n := d * 10 ^ e)
    omega
  rw [text_nat positive, positiveText_eq found ((length_add_le_iff digits).2 short)]
  refine ⟨d * 10 ^ e, denotes_ofList ?_ ?_ ?_, Nat.mul_pos digits (Nat.pow_pos (by decide))⟩
  · exact List.append_ne_nil_of_left_ne_nil Nat.toDigits_ne_nil _
  · intro c member
    obtain inside | behind := List.mem_append.1 member
    · exact Nat.isDigit_of_mem_toDigits (by decide) (by decide) inside
    · rw [List.eq_of_mem_replicate behind]
      rfl
  · rw [Nat.ofDigitChars_append, Nat.ofDigitChars_replicate_zero, Nat.mul_comm]
    congr 1
    exact Nat.ofDigitChars_ten_toDigits

end Number

namespace Settings

/-- The text of a whole double is the numeral of a positive number exactly below `10 ^ 21`. -/
theorem isBudget_text_iff {k : Nat} (positive : 0 < k) (double : Number.rounded k = k) :
    IsBudget (Number.finite k).text ↔ k < 10 ^ 21 := by
  constructor
  · rintro ⟨n, numeral, some_⟩
    exact Number.lt_of_denotes_text positive numeral some_
  · exact Number.exists_denotes_text positive double

end Settings

end Chip8
