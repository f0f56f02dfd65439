import Chip8.Number.Read
import Chip8.Text.Hex
import Mathlib.Algebra.Group.Nat.Defs
import Mathlib.Tactic.Lemma
import Mathlib.Tactic.SplitIfs
/-!
# Reading hexadecimal text

What is written in base sixteen is read back, whether its letters are small or capital
(`digitsValue_base16`), and zeros in front of it do not matter (`digitsValue_hex`). So a text tells
the number (`hexLower_injective`). The reader takes no other characters for digits than those that
are written (`eq_digit_of_digitIn?`).
-/

namespace Chip8.Text

variable {n w : Nat} {c : Char} {cs : List Char} {digit : Nat → Char}

/-- Upper case digits are read as the digits that they are. -/
lemma digitIn_upperDigit : ∀ d < 16, Number.digitIn? 16 (upperDigit d) = some d := by
  decide

/-- Lower case digits are read as the digits that they are. -/
lemma digitIn_lowerDigit : ∀ d < 16, Number.digitIn? 16 (lowerDigit d) = some d := by
  decide

/-- A character that is read as a digit is the one for its value, in small or in capital letters. -/
lemma eq_digit_of_digitIn? {d : Nat} (read : Number.digitIn? 16 c = some d) :
    d < 16 ∧ (c = lowerDigit d ∨ c = upperDigit d) := by
  have whole := c.ofNat_toNat
  simp only [Number.digitIn?, Bool.and_eq_true, decide_eq_true_eq, Option.ite_none_right_eq_some,
    Option.some.injEq] at read
  obtain ⟨below, value⟩ := read
  rw [value] at below
  refine ⟨below, ?_⟩
  rw [lowerDigit, upperDigit]
  split_ifs at value with figure capital small
  · left
    rw [if_pos (by omega), show 48 + d = c.toNat by omega, whole]
  · right
    rw [if_neg (by omega), show 55 + d = c.toNat by omega, whole]
  · left
    rw [if_neg (by omega), show 87 + d = c.toNat by omega, whole]
  · omega

/-- The digits of a number are digits. -/
lemma mem_base16 (member : c ∈ base16 digit n) : ∃ d < 16, c = digit d := by
  induction n using base16.induct with
  | case1 n small =>
    rw [base16, if_pos small, List.mem_singleton] at member
    exact ⟨n, small, member⟩
  | case2 n large ih =>
    rw [base16, if_neg large, List.mem_append, List.mem_singleton] at member
    obtain before | last := member
    · exact ih before
    · exact ⟨n % 16, Nat.mod_lt _ (by decide), last⟩

section

variable (reads : ∀ d < 16, Number.digitIn? 16 (digit d) = some d)
include reads

/-- A digit at the end counts once, and those in front sixteen times. -/
lemma digitsValue_append_digit {d : Nat} (small : d < 16) :
    Number.digitsValue 16 (cs ++ [digit d]) = 16 * Number.digitsValue 16 cs + d := by
  simp only [Number.digitsValue, List.foldl_append, List.foldl_cons, List.foldl_nil,
    reads d small, Option.getD_some]

/-- A number in base sixteen is read as that number. -/
lemma digitsValue_base16 (n : Nat) : Number.digitsValue 16 (base16 digit n) = n := by
  induction n using base16.induct with
  | case1 n small =>
    rw [base16, if_pos small, ← List.nil_append [digit n], digitsValue_append_digit reads small]
    exact Nat.zero_add n
  | case2 n large ih =>
    rw [base16, if_neg large, digitsValue_append_digit reads (Nat.mod_lt _ (by decide)), ih]
    omega

end

/-- Zeros in front do not change what the digits of a number say. -/
lemma digitsValue_padLeft (w : Nat) (cs : List Char) :
    Number.digitsValue 16 (padLeft '0' w cs) = Number.digitsValue 16 cs := by
  rw [padLeft]
  generalize w - cs.length = k
  induction k with
  | zero => rfl
  | succ k ih => exact ih

/-- The characters of a number in base sixteen, filled up with zeros in front. -/
lemma toList_hex (w n : Nat) : (hex w n).toList = padLeft '0' w (base16 upperDigit n) :=
  String.toList_ofList

/-- A number that is filled up with zeros is read as that number. -/
lemma digitsValue_hex (w n : Nat) : Number.digitsValue 16 (hex w n).toList = n := by
  rw [toList_hex, digitsValue_padLeft, digitsValue_base16 digitIn_upperDigit]

/-- Numbers with the same text are the same. -/
lemma hexLower_injective (w : Nat) : Function.Injective (hexLower w) := by
  intro n m same
  have digits := congrArg (Number.digitsValue 16 ·.toList) same
  simpa only [hexLower, String.toList_ofList, digitsValue_padLeft,
    digitsValue_base16 digitIn_lowerDigit] using digits

/-- A number below a power of sixteen has no more digits than that. -/
lemma length_base16_le {k : Nat} (small : n < 16 ^ (k + 1)) :
    (base16 digit n).length ≤ k + 1 := by
  induction k generalizing n with
  | zero =>
    rw [Nat.zero_add, Nat.pow_one] at small
    rw [base16, if_pos small]
    exact Nat.le_refl 1
  | succ k ih =>
    rw [base16]
    split
    · exact Nat.le_add_left _ _
    · rw [List.length_append, List.length_singleton]
      exact Nat.succ_le_succ (ih (Nat.div_lt_of_lt_mul (by rwa [← Nat.pow_succ'])))

/-- A number that has room in its places fills them. -/
lemma length_hex {k : Nat} (small : n < 16 ^ (k + 1)) : (hex (k + 1) n).toList.length = k + 1 := by
  rw [toList_hex, length_padLeft]
  exact Nat.max_eq_left (length_base16_le small)

/-- The characters of a number are digits. -/
lemma mem_hex (member : c ∈ (hex w n).toList) : ∃ d < 16, c = upperDigit d := by
  rw [toList_hex, padLeft, List.mem_append] at member
  obtain zero | digit := member
  · exact ⟨0, by decide, List.eq_of_mem_replicate zero⟩
  · exact mem_base16 digit

end Chip8.Text
