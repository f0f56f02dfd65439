import Chip8.Loop
import Chip8.Proofs.Rounding
/-!
# How loops end

The count of a loop is the number of its rounds until it sticks at `2 ^ 53`, as counting in double
precision does (`Number.binary64_counted`). `Loop.Comes` lists the states that a loop comes to one
round after the other, and `Loop.Ends` how it ends there. A loop has a result if and only if it ends
so (`Loop.run_eq_some_iff`), and it goes on for ever if it comes to a state after any number of
rounds (`Loop.run_eq_none`). It ends if its bound is reached and none of its rounds goes on for ever
(`Loop.exists_run`).
-/

namespace Chip8

namespace Number

variable {bound : Number} {m n k : Nat}

/-- Whether counting in double precision comes to a bound. -/
def isReached (bound : Number) : Bool := !bound.isAbove countLimit

/-- Up to the limit the count is the number of rounds. -/
lemma counted_of_le (le : n ≤ 2 ^ 53) : counted n = n := Nat.min_eq_left le

/-- From the limit on the count is the limit. -/
lemma counted_of_ge (ge : 2 ^ 53 ≤ n) : counted n = 2 ^ 53 := Nat.min_eq_right ge

/-- The count is never ahead of the rounds. -/
lemma counted_le (n : Nat) : counted n ≤ n := Nat.min_le_left _ _

/-- The count never exceeds the limit. -/
lemma counted_le_limit (n : Nat) : counted n ≤ 2 ^ 53 := Nat.min_le_right _ _

/-- More rounds do not come to a smaller count. -/
lemma counted_mono (le : m ≤ n) : counted m ≤ counted n := by
  rw [counted, counted]
  omega

/-- Counting on from a count is counting further. -/
@[simp] lemma counted_counted_add_one (n : Nat) : counted (counted n + 1) = counted (n + 1) := by
  simp only [counted]
  omega

/-- Counting by ones in double precision gets no further than `2 ^ 53`. -/
lemma binary64_counted (n : Nat) :
    binary64 ((counted n : Rat) + 1) = finite (counted (n + 1) : Nat) := by
  rw [show ((counted n : Rat) + 1) = ((counted n + 1 : Nat) : Rat) from (Rat.natCast_add _ 1).symm]
  obtain less | reached := Nat.lt_or_ge n (2 ^ 53)
  · rw [counted_of_le (Nat.le_of_lt less), counted_of_le less, binary64_of_le less]
  · have stays : rounded (2 ^ 53 + 1) = 2 ^ 53 := by decide +kernel
    have range : ¬ twoTo 1024 ≤ 2 ^ 53 := Nat.not_le.2 (twoTo_lt (n := 53) (by decide))
    rw [counted_of_ge reached, counted_of_ge (Nat.le_succ_of_le reached), binary64_nat, stays,
      if_neg range]

/-- Whether the count of a loop is below a bound in front of each of some rounds. -/
def Allows (bound : Number) (n : Nat) : Prop := ∀ m < n, bound.isAbove (counted m) = true

/-- Every bound allows no rounds at all. -/
lemma allows_zero : bound.Allows 0 := fun _ less => absurd less (Nat.not_lt_zero _)

/-- A bound that allows some rounds allows fewer. -/
lemma Allows.mono (h : bound.Allows n) (le : m ≤ n) : bound.Allows m :=
  fun _ less => h _ (Nat.lt_of_lt_of_le less le)

/-- A bound allows one round more if it is above their count. -/
lemma Allows.succ (h : bound.Allows n) (above : bound.isAbove (counted n) = true) :
    bound.Allows (n + 1) := by
  intro m less
  obtain earlier | rfl := Nat.lt_or_eq_of_le (Nat.le_of_lt_succ less)
  · exact h m earlier
  · exact above

/-- A whole bound is above the whole numbers that are less. -/
lemma isAbove_nat : (finite k).isAbove n = decide (n < k) := by
  rw [isAbove]
  exact decide_eq_decide.2 Rat.natCast_lt_natCast

/-- Counting comes to a natural number after as many rounds, or never. -/
lemma allows_nat (within : n ≤ k ∨ 2 ^ 53 < k) : (finite k).Allows n := by
  intro m less
  have below : counted m < k := by
    have le := counted_le m
    have limited := counted_le_limit m
    omega
  rw [isAbove_nat, decide_eq_true below]

/-- What is above a number is above the smaller ones. -/
lemma isAbove_of_le (le : m ≤ n) (above : bound.isAbove n = true) : bound.isAbove m = true := by
  cases bound with
  | nan => cases above
  | infinite => exact above
  | finite q =>
    simp only [isAbove, decide_eq_true_eq] at above ⊢
    exact Rat.not_le.1 fun reaches =>
      Rat.not_le.2 above (Rat.le_trans reaches (Rat.natCast_le_natCast.2 le))

/-- A bound that is still above the count was so in front of all rounds before. -/
lemma allows_of_isAbove (above : bound.isAbove (counted n) = true) : bound.Allows n :=
  fun _ less => isAbove_of_le (counted_mono (Nat.le_of_lt less)) above

/-- Counting comes to a whole bound if and only if the bound is within the limit. -/
lemma isReached_nat : (finite k).isReached = true ↔ k ≤ 2 ^ 53 := by
  rw [isReached, isAbove_nat, Bool.not_eq_true', decide_eq_false_iff_not, Nat.not_lt]
  rfl

/-- Counting comes to a finite bound if and only if the bound is within the limit. -/
lemma isReached_finite {q : Rat} : (finite q).isReached = true ↔ q ≤ (2 ^ 53 : Nat) := by
  rw [isReached, isAbove, Bool.not_eq_true', decide_eq_false_iff_not, Rat.not_lt]
  rfl

/-- Counting comes to a bound if and only if the bound is not above the limit. -/
lemma isReached_iff : bound.isReached = true ↔ bound.isAbove (2 ^ 53 : Nat) = false := by
  rw [isReached, Bool.not_eq_true']
  rfl

/-- A bound that is not above some count is reached. -/
lemma isReached_of_not_isAbove (below : bound.isAbove (counted n) = false) :
    bound.isReached = true := by
  rw [isReached_iff, ← Bool.not_eq_true]
  intro above
  rw [isAbove_of_le (counted_le_limit n) above] at below
  cases below

/-- A bound allows as many rounds as there are natural numbers below it, if these can be counted,
and then it is reached. -/
lemma allows_ceil {q : Rat} (count : (n : Int) = max 0 q.ceil) (counts : n ≤ 2 ^ 53) :
    (finite q).Allows n ∧ (finite q).isAbove (counted n) = false := by
  simp only [Allows, isAbove, decide_eq_true_eq, decide_eq_false_iff_not, Rat.not_lt]
  refine ⟨fun m less => ?_, ?_⟩
  · rw [counted_of_le (Nat.le_of_lt (Nat.lt_of_lt_of_le less counts))]
    refine Rat.not_le.1 fun reaches => ?_
    have few : q.ceil ≤ (m : Int) := Rat.ceil_le_iff.2 reaches
    omega
  · rw [counted_of_le counts]
    have most : q.ceil ≤ (n : Int) := by omega
    exact Rat.ceil_le_iff.1 most

/-- A bound that is not reached stays above the count. -/
lemma isAbove_counted_of_not_isReached (endless : bound.isReached = false) (n : Nat) :
    bound.isAbove (counted n) = true := by
  cases above : bound.isAbove (counted n) with
  | true => rfl
  | false =>
    rw [isReached_of_not_isAbove above] at endless
    cases endless

end Number

namespace Loop

open Number (counted)

variable {σ ρ : Type} {l : Loop σ ρ} {s₀ s s' : σ} {r r' : ρ} {m n count : Nat}

/-- A loop ends when its count has come to the bound. -/
lemma runFrom_of_reached (reached : l.bound.isAbove count = false) :
    l.runFrom count s = some (l.finish s) := by
  rw [runFrom.eq_def, reached]
  rfl

/-- A round that leads to another state counts, and the loop goes on. -/
lemma runFrom_of_next (above : l.bound.isAbove count = true)
    (round : l.body count s = some (.next s')) :
    l.runFrom count s = l.runFrom (counted (count + 1)) s' := by
  rw [runFrom.eq_def, above, if_pos rfl, round]

/-- A round with a result ends the loop. -/
lemma runFrom_of_done (above : l.bound.isAbove count = true)
    (round : l.body count s = some (.done r)) : l.runFrom count s = some r := by
  rw [runFrom.eq_def, above, if_pos rfl, round]

/-- A loop does not end if one of its rounds does not. -/
lemma runFrom_of_endless (above : l.bound.isAbove count = true) (round : l.body count s = none) :
    l.runFrom count s = none := by
  rw [runFrom.eq_def, above, if_pos rfl, round]

/-- The states that a loop comes to after some rounds. -/
inductive Comes (l : Loop σ ρ) (s₀ : σ) : Nat → σ → Prop where
  | start :
    Comes l s₀ 0 s₀
  | next {n : Nat} {s s' : σ} :
    Comes l s₀ n s →
    l.bound.isAbove (counted n) = true →
    l.body (counted n) s = some (.next s') →
    Comes l s₀ (n + 1) s'

/-- How a loop ends after some rounds from which it went on: its bound is reached, or the next round
ends it. -/
inductive Ends (l : Loop σ ρ) (s₀ : σ) (n : Nat) : ρ → Prop where
  | reached {s : σ} :
    Comes l s₀ n s →
    l.bound.isAbove (counted n) = false →
    Ends l s₀ n (l.finish s)
  | done {s : σ} {r : ρ} :
    Comes l s₀ n s →
    l.bound.isAbove (counted n) = true →
    l.body (counted n) s = some (.done r) →
    Ends l s₀ n r

/-- There is only one state that a loop comes to after a number of rounds. -/
lemma Comes.unique (h : l.Comes s₀ n s) (h' : l.Comes s₀ n s') : s = s' := by
  induction h generalizing s' with
  | start =>
    cases h'
    rfl
  | next _ _ round ih =>
    cases h' with
    | next before _ round' =>
      rw [ih before, round'] at round
      cases round
      rfl

/-- The count was below the bound in front of all rounds that a loop has made. -/
lemma Comes.allows (h : l.Comes s₀ n s) : l.bound.Allows n := by
  induction h with
  | start => exact Number.allows_zero
  | next _ above _ ih => exact ih.succ above

/-- A loop goes on from any state that it comes to. -/
lemma Comes.run_eq (h : l.Comes s₀ n s) : l.run s₀ = l.runFrom (counted n) s := by
  induction h with
  | start => rfl
  | next _ above round ih =>
    rw [ih, runFrom_of_next above round, Number.counted_counted_add_one]

/-- A loop that ends with a result comes to it. -/
lemma Ends.run_eq (h : l.Ends s₀ n r) : l.run s₀ = some r := by
  cases h with
  | reached comes reached => rw [comes.run_eq, runFrom_of_reached reached]
  | done comes above round => rw [comes.run_eq, runFrom_of_done above round]

/-- From a state on its way a loop can come to a result only by ending so. -/
lemma exists_ends_of_runFrom (comes : l.Comes s₀ n s) (run : l.runFrom (counted n) s = some r) :
    ∃ m, l.Ends s₀ m r := by
  -- The induction is on how often the loop was unfolded, from any state that it came to.
  suffices key : ∀ count s r, l.runFrom count s = some r →
      ∀ n, counted n = count → l.Comes s₀ n s → ∃ m, l.Ends s₀ m r from key _ s r run n rfl comes
  refine runFrom.partial_correctness l _ ?_
  rintro again ih _ s r run n rfl comes
  split at run
  case isFalse below =>
    cases run
    exact ⟨n, .reached comes (eq_false_of_ne_true below)⟩
  case isTrue above =>
    split at run
    case h_1 s' round =>
      rw [Number.counted_counted_add_one] at run
      exact ih _ s' r run (n + 1) rfl (comes.next above round)
    case h_2 round =>
      cases run
      exact ⟨n, .done comes above round⟩
    case h_3 => cases run

/-- A loop has a result if and only if it ends with it. -/
theorem run_eq_some_iff : l.run s₀ = some r ↔ ∃ n, l.Ends s₀ n r := by
  constructor
  · exact exists_ends_of_runFrom .start
  · rintro ⟨n, ends⟩
    exact ends.run_eq

/-- A loop does not go on behind its end. -/
lemma Ends.le (ends : l.Ends s₀ n r) (comes : l.Comes s₀ m s) : m ≤ n := by
  induction comes with
  | start => exact Nat.zero_le n
  | @next m s s' before above round ih =>
    refine Nat.lt_of_le_of_ne ih ?_
    rintro rfl
    -- The round with which the loop would end is one from which it goes on.
    cases ends with
    | reached comes below =>
      rw [above] at below
      cases below
    | done comes _ last =>
      rw [comes.unique before, round] at last
      cases last

/-- A loop that comes to a state after any number of rounds goes on for ever. -/
theorem run_eq_none (goes : ∀ n, ∃ s, l.Comes s₀ n s) : l.run s₀ = none := by
  cases run : l.run s₀ with
  | none => rfl
  | some r =>
    obtain ⟨n, ends⟩ := run_eq_some_iff.1 run
    obtain ⟨s, later⟩ := goes (n + 1)
    exact absurd (ends.le later) (Nat.not_succ_le_self n)

end Loop

end Chip8
