import Chip8.Proofs.Rounding
import Chip8.Proofs.Words
import Chip8.Settings
/-!
# Numerals

`Number.Denotes` says which texts are decimal numerals, and of which number. The budget of a frame
is read from just these texts, unless they say zero, as the nearest double (`readBudget_eq_ok_iff`).
A number that is written as a numeral is read back from it (`binary64_of_denotes_text`): it is
written positionally then, with zeros behind the digits that tell it from other doubles.
-/

namespace Chip8

namespace Number

variable {text : String} {n m : Nat} {digits : List Char} {c : Char} {q : Rat} {e : Int}

/-- Whether a text consists of the decimal digits of a number with blanks around them. -/
def Denotes (text : String) (n : Nat) : Prop :=
  ∃ digits, Text.Surrounds text.toList digits ∧ digits ≠ [] ∧ (∀ c ∈ digits, c.isDigit) ∧
    Nat.ofDigitChars 10 digits 0 = n

/-- The decimal digits are ten characters in a row. -/
lemma isDigit_iff : c.isDigit ↔ 48 ≤ c.toNat ∧ c.toNat ≤ 57 := by
  simp only [Char.isDigit, Bool.and_eq_true, decide_eq_true_eq, ge_iff_le]
  exact Iff.rfl

/-- A decimal digit is no blank. -/
lemma not_isBlank_of_isDigit (h : c.isDigit) : Text.isBlank c = false := by
  have range := isDigit_iff.1 h
  simp only [Text.isBlank, Bool.or_eq_false_iff, Bool.and_eq_false_iff, decide_eq_false_iff_not]
  omega

/-- The value of a character in base ten, if it is a digit. -/
lemma digitIn_ten (c : Char) : digitIn? 10 c = if c.isDigit then some (c.toNat - 48) else none := by
  simp only [isDigit_iff, digitIn?, Bool.and_eq_true, decide_eq_true_eq]
  split_ifs <;> first | rfl | omega

/-- A character is decimal if it is a digit. -/
lemma isDecimal_eq (c : Char) : isDecimal c = c.isDigit := by
  rw [isDecimal, digitIn_ten]
  cases c.isDigit <;> rfl

/-- The value of digits is what the library says. -/
lemma digitsValue_eq (all : ∀ c ∈ digits, c.isDigit) :
    digitsValue 10 digits = Nat.ofDigitChars 10 digits 0 := by
  refine List.foldl_ext _ _ 0 fun value c member => ?_
  rw [digitIn_ten, if_pos (all c member)]
  rfl

/-- Characters are not refused if there are some and all are digits. -/
lemma isRefused_eq_false_iff : (digits.isEmpty || !digits.all isDecimal) = false ↔
    digits ≠ [] ∧ ∀ c ∈ digits, c.isDigit := by
  simp [isDecimal_eq]

/-- A numeral is what is left after trimming. -/
lemma denotes_iff_trimChars : Denotes text n ↔
    Text.trimChars text.toList ≠ [] ∧ (∀ c ∈ Text.trimChars text.toList, c.isDigit) ∧
      Nat.ofDigitChars 10 (Text.trimChars text.toList) 0 = n := by
  constructor
  · rintro ⟨digits, around, some_, all, value⟩
    rw [Text.trimChars_of_surrounds around fun c member => not_isBlank_of_isDigit (all c member)]
    exact ⟨some_, all, value⟩
  · exact fun ⟨some_, all, value⟩ => ⟨_, Text.surrounds_trimChars _, some_, all, value⟩

/-- A text is a numeral of one number only. -/
lemma Denotes.unique (first : Denotes text n) (second : Denotes text m) : n = m :=
  (denotes_iff_trimChars.1 first).2.2.symm.trans (denotes_iff_trimChars.1 second).2.2

/-- There is nothing but digits and blanks in a numeral. -/
lemma Denotes.isDigit_or_isBlank (h : Denotes text n) (member : c ∈ text.toList) :
    c.isDigit ∨ Text.isBlank c := by
  obtain ⟨digits, ⟨before, behind, same, first, last⟩, -, all, -⟩ := h
  rw [same, List.mem_append, List.mem_append] at member
  obtain (inFront | inside) | after := member
  · exact .inr (first c inFront)
  · exact .inl (all c inside)
  · exact .inr (last c after)

/-- Digits are a numeral, that of the number that they write. -/
lemma denotes_ofList (some_ : digits ≠ []) (all : ∀ c ∈ digits, c.isDigit)
    (value : Nat.ofDigitChars 10 digits 0 = n) : Denotes (String.ofList digits) n := by
  refine ⟨digits, ⟨[], [], ?_, fun _ => nofun, fun _ => nofun⟩, some_, all, value⟩
  rw [String.toList_ofList, List.nil_append, List.append_nil]

/-- What digits denote is their value. -/
lemma Denotes.eq_of_isDigit (h : Denotes (String.ofList digits) n) (all : ∀ c ∈ digits, c.isDigit) :
    Nat.ofDigitChars 10 digits 0 = n := by
  have some_ : digits ≠ [] := by
    rintro rfl
    exact (denotes_iff_trimChars.1 h).1 rfl
  exact (denotes_ofList some_ all rfl).unique h

/-- Powers of ten. -/
lemma tenTo_eq (n : Nat) : tenTo n = 10 ^ n := rfl

/-- A decimal that is a natural number. -/
lemma decimalScaled_eq {d : Nat} (value : d * tenTo e.toNat = n * tenTo (-e).toNat) :
    decimalScaled d e = n := by
  have places : tenTo (-e).toNat ≠ 0 := Nat.ne_of_gt (Nat.pow_pos (by decide))
  have cancel := Rat.mkRat_mul_right (n := n) (d := 1) places
  rw [Nat.one_mul] at cancel
  rw [decimalScaled, ← Int.natCast_mul, value, Int.natCast_mul, cancel, Rat.mkRat_one]
  rfl

/-- What is found on a grid reads back. -/
lemma binary64_of_onGrid {d : Nat} (found : onGrid? q e = some d) :
    binary64 (decimalScaled d e) = finite q := by
  simp only [onGrid?, Bool.and_eq_true, decide_eq_true_eq] at found
  split at found
  case isTrue both =>
    rw [Option.some.injEq] at found
    subst found
    split
    · exact both.1
    · exact both.2
  case isFalse =>
    split at found
    case isTrue low =>
      cases found
      exact low
    case isFalse =>
      split at found
      case isTrue high =>
        cases found
        exact high
      case isFalse => cases found

/-- The search ends on the first grid on which a number is found, or with none. -/
lemma shortestFrom_cases (q : Rat) (top : Int) (fuel places : Nat) :
    (∃ p d, places ≤ p ∧ p ≤ places + fuel ∧ onGrid? q (top + 1 - p) = some d ∧
      (∀ p', places ≤ p' → p' < p → onGrid? q (top + 1 - p') = none) ∧
      shortestFrom q top fuel places = (d, top + 1 - p)) ∨
    ((∀ p', places ≤ p' → p' ≤ places + fuel → onGrid? q (top + 1 - p') = none) ∧
      (shortestFrom q top fuel places).1 = 0) := by
  induction fuel generalizing places with
  | zero =>
    cases grid : onGrid? q (top + 1 - places) with
    | some d =>
      refine .inl ⟨places, d, Nat.le_refl _, Nat.le_refl _, grid, fun p' _ _ => by omega, ?_⟩
      rw [shortestFrom, grid]
      rfl
    | none =>
      refine .inr ⟨fun p' _ _ => ?_, ?_⟩
      · rwa [show p' = places by omega]
      · rw [shortestFrom, grid]
        rfl
  | succ fuel ih =>
    rw [shortestFrom]
    cases grid : onGrid? q (top + 1 - places) with
    | some d =>
      exact .inl ⟨places, d, Nat.le_refl _, by omega, grid, fun p' _ _ => by omega, rfl⟩
    | none =>
      have here (p' : Nat) (from_ : places ≤ p')
          (later : places + 1 ≤ p' → onGrid? q (top + 1 - p') = none) :
          onGrid? q (top + 1 - p') = none := by
        obtain rfl | less := Nat.eq_or_lt_of_le from_
        · exact grid
        · exact later less
      obtain ⟨p, d, low, high, found, first, same⟩ | ⟨missing, zero⟩ := ih (places + 1)
      · refine .inl ⟨p, d, by omega, by omega, found, fun p' from_ less => ?_, same⟩
        exact here p' from_ fun later => first p' later less
      · refine .inr ⟨fun p' from_ upTo => ?_, zero⟩
        exact here p' from_ fun later => missing p' later (by omega)

/-- The search ends with a decimal that reads back, unless it ends with none. -/
lemma binary64_of_shortestFrom {top : Int} {fuel places d : Nat}
    (found : shortestFrom q top fuel places = (d, e)) (some_ : d ≠ 0) :
    binary64 (decimalScaled d e) = finite q := by
  obtain ⟨p, d', -, -, grid, -, same⟩ | ⟨-, zero⟩ := shortestFrom_cases q top fuel places
  · cases found.symm.trans same
    exact binary64_of_onGrid grid
  · rw [found] at zero
    exact absurd zero some_

/-- Digits are those that are kept and then the zeros that are dropped. -/
lemma append_dropZeros (digits : List Char) :
    (dropZeros digits).1 ++ List.replicate (dropZeros digits).2 '0' = digits := by
  have whole : digits.rdropWhile (· = '0') ++ digits.rtakeWhile (· = '0') = digits :=
    List.rdropWhile_append_rtakeWhile
  have zeros : digits.rtakeWhile (· = '0') =
      List.replicate (digits.rtakeWhile (· = '0')).length '0' :=
    List.eq_replicate_of_mem fun c member => by simpa using List.mem_rtakeWhile_imp member
  have count : (dropZeros digits).2 = (digits.rtakeWhile (· = '0')).length := by
    have sum := congrArg List.length whole
    rw [List.length_append] at sum
    change digits.length - (digits.rdropWhile (· = '0')).length = _
    omega
  rw [count, ← zeros]
  exact whole

/-- A layout without any mark is positional, with nothing behind the decimal point. -/
lemma layOut_of_isDigit {point : Int}
    (plain : ∀ c ∈ layOut digits point, c.isDigit ∨ Text.isBlank c) :
    digits.length ≤ point ∧ point ≤ 21 ∧
      layOut digits point = digits ++ List.replicate (point - digits.length).toNat '0' := by
  have mark (c : Char) (other : ¬ (c.isDigit ∨ Text.isBlank c)) : c ∉ layOut digits point :=
    fun member => other (plain c member)
  have dot := mark '.' (by decide)
  have exponent := mark 'e' (by decide)
  clear plain mark
  simp only [layOut] at dot exponent ⊢
  split_ifs at dot exponent ⊢
  case pos whole => exact ⟨whole.1, whole.2, rfl⟩
  all_goals simp at dot exponent

/-- Where a positive double is written as a numeral, the decimal that is found has at most
twenty-one places, and it is the number that is written. -/
lemma value_of_denotes_positiveText (h : Denotes (String.ofList (positiveText q)) n) {d : Nat}
    (found : shortest q = (d, e)) :
    (decimal d).length + e ≤ 21 ∧ d * tenTo e.toNat = n * tenTo (-e).toNat := by
  have parts := append_dropZeros (decimal d)
  rcases kept : dropZeros (decimal d) with ⟨digits, zeros⟩
  simp only [kept] at parts
  have text : positiveText q = layOut digits (digits.length + zeros + e) := by
    simp only [positiveText, found, kept]
  rw [text] at h
  have plain : ∀ c ∈ layOut digits (digits.length + zeros + e), c.isDigit ∨ Text.isBlank c :=
    fun c member => h.isDigit_or_isBlank (String.toList_ofList.symm ▸ member)
  obtain ⟨left, right, whole⟩ := layOut_of_isDigit plain
  have length : (decimal d).length = digits.length + zeros := by
    rw [← parts, List.length_append, List.length_replicate]
  refine ⟨by omega, ?_⟩
  have all : ∀ c ∈ digits, c.isDigit := fun c member =>
    Nat.isDigit_of_mem_toDigits (b := 10) (n := d) (by decide) (by decide)
      (show c ∈ decimal d from parts ▸ List.mem_append_left _ member)
  -- The digits that are kept, with as many zeros as the grid asks for, and as are written.
  have mantissa : 10 ^ zeros * Nat.ofDigitChars 10 digits 0 = d := by
    rw [← Nat.ofDigitChars_replicate_zero, ← Nat.ofDigitChars_append, parts]
    exact Nat.ofDigitChars_ten_toDigits
  have value : 10 ^ (zeros + e).toNat * Nat.ofDigitChars 10 digits 0 = n := by
    rw [whole] at h
    rw [← h.eq_of_isDigit ?_, Nat.ofDigitChars_append, Nat.ofDigitChars_replicate_zero]
    · congr 3
      omega
    · intro c member
      obtain inside | behind := List.mem_append.1 member
      · exact all c inside
      · rw [List.eq_of_mem_replicate behind]
        rfl
  have powers : 10 ^ zeros * 10 ^ e.toNat = 10 ^ (zeros + e).toNat * 10 ^ (-e).toNat := by
    rw [← Nat.pow_add, ← Nat.pow_add]
    congr 1
    omega
  rw [← mantissa, ← value, tenTo_eq, tenTo_eq, Nat.mul_right_comm, powers, Nat.mul_right_comm]

/-- Where a positive double is written as a numeral, it is the number that reads back. -/
lemma binary64_of_denotes_positiveText (h : Denotes (String.ofList (positiveText q)) n)
    (positive : 0 < n) : binary64 n = finite q := by
  rcases found : shortest q with ⟨d, e⟩
  have same := (value_of_denotes_positiveText h found).2
  have some_ : d ≠ 0 := by
    rintro rfl
    rw [Nat.zero_mul, eq_comm, Nat.mul_eq_zero] at same
    obtain zero | power := same
    · exact absurd zero (Nat.ne_of_gt positive)
    · exact absurd power (Nat.ne_of_gt (Nat.pow_pos (by decide)))
  rw [← decimalScaled_eq same, binary64_of_shortestFrom found some_]

/-- A number that is written as a numeral reads back. -/
lemma binary64_of_denotes_text {number : Number} (h : Denotes number.text n) (positive : 0 < n) :
    binary64 n = number := by
  have mark (c : Char) (other : ¬ (c.isDigit ∨ Text.isBlank c)) : c ∉ number.text.toList :=
    fun member => other (h.isDigit_or_isBlank member)
  have letter := mark 'N' (by decide)
  have initial := mark 'I' (by decide)
  have minus := mark '-' (by decide)
  cases number with
  | nan => simp [Number.text] at letter
  | infinite negative => cases negative <;> simp [Number.text] at initial
  | finite q =>
    rw [Number.text] at h minus
    split at h
    case isTrue =>
      have zero : Nat.ofDigitChars 10 ['0'] 0 = n := Denotes.eq_of_isDigit h fun c member => by
          rw [List.mem_singleton.1 member]
          rfl
      exact absurd zero (Nat.ne_of_lt positive)
    case isFalse some_ =>
      rw [if_neg some_] at minus
      split at h
      case isTrue negative => simp [negative] at minus
      case isFalse => exact binary64_of_denotes_positiveText h positive

end Number

/-- The budget of a frame is read from the numerals of positive numbers. -/
lemma Settings.readBudget_eq_ok_iff {source text : String} {budget : Number} :
    readBudget source text = .ok budget ↔
      ∃ n : Nat, Number.Denotes text n ∧ 0 < n ∧ budget = Number.binary64 n := by
  simp only [readBudget, Number.denotes_iff_trimChars]
  generalize Text.trimChars text.toList = digits
  by_cases form : digits ≠ [] ∧ ∀ c ∈ digits, c.isDigit
  · obtain ⟨some_, all⟩ := form
    rw [Number.isRefused_eq_false_iff.2 ⟨some_, all⟩, Number.digitsValue_eq all,
      Number.ofDecimal_nat]
    obtain zero | positive := Nat.eq_zero_or_pos (Nat.ofDigitChars 10 digits 0)
    · rw [zero]
      refine iff_of_false nofun ?_
      rintro ⟨n, ⟨-, -, rfl⟩, positive, -⟩
      exact absurd positive (Nat.lt_irrefl 0)
    · simp only [if_neg (Nat.ne_of_gt positive), Bool.false_eq_true, if_false, Except.ok.injEq]
      constructor
      · exact fun same => ⟨_, ⟨some_, all, rfl⟩, positive, same.symm⟩
      · rintro ⟨n, ⟨-, -, rfl⟩, -, rfl⟩
        rfl
  · have wrong := form
    rw [← Number.isRefused_eq_false_iff, Bool.not_eq_false] at wrong
    rw [wrong, if_pos rfl]
    refine iff_of_false nofun ?_
    rintro ⟨n, ⟨some_, all, -⟩, -⟩
    exact form ⟨some_, all⟩

end Chip8
