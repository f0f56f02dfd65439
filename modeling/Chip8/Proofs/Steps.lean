import Chip8.Proofs.Loops
import Chip8.Proofs.Step
/-!
# Steps in a row

`Engine.steps` makes a number of steps, ended early by an error or a stopped engine. The steps that
an engine makes below a bound are those up to the end of a loop (`Engine.EndsAfter`), and come to
what as many steps come to (`Engine.stepsBelow_eq_some_iff`). They have an end if the bound is
reached or the engine stops (`Engine.isSome_stepsBelow_iff`).
-/

namespace Chip8.Engine

open Number (counted)

variable {e e' : Engine} {f : Fault} {error : Error} {seen seen' : Observed} {n : Nat}
  {bound : Number} {t : Transition Engine Unit}

/-- As many steps as are left, unless the engine stops before, after what has been seen already. -/
def stepsFrom (e : Engine) (seen : Observed) : Nat → Transition Engine Unit
  | 0 => ⟨e, .ok (), seen⟩
  | n + 1 =>
    if e.halted then ⟨e, .ok (), seen⟩
    else match e.step with
      | ⟨e', .ok (), now⟩ => stepsFrom e' (seen ++ now) n
      | ⟨e', .error error, now⟩ => ⟨e', .error error, seen ++ now⟩

/-- A number of steps, ended early by an error or a stopped engine. -/
def steps (e : Engine) (n : Nat) : Transition Engine Unit := e.stepsFrom .none n

/-- An engine that has not stopped is not halted. -/
lemma halted_of_running (running : e.fault = none) : e.halted = false := by
  rw [halted, running]
  rfl

/-- An engine that has stopped is halted. -/
lemma halted_of_stopped (stopped : e.fault = some f) : e.halted = true := by
  rw [halted, stopped]
  rfl

/-- A look for a key never stops the engine. -/
lemma fault_poll (target : Register) : (e.poll target).fault = e.fault := by
  rw [poll]
  split <;> rfl

/-- An engine that has stopped makes no steps. -/
lemma step_of_stopped (stopped : e.fault = some f) : e.step = ⟨e, .ok (), .none⟩ := by
  rw [step, stopped]

/-- A step that succeeds leaves an engine that runs. -/
lemma running_step (running : e.fault = none) (done : e.step.result = .ok ()) :
    e.step.state.fault = none := by
  have way := e.step_stepped
  generalize e.step = t at way done
  cases way with
  | halted stopped => rw [running] at stopped; cases stopped
  | polled => exact (fault_poll _).trans running
  | unfetched | stopped => cases done
  | completed => exact running

/-- A step fails with nothing but a fault. -/
lemma error_step (failed : e.step.result = .error error) : ∃ f, error = .stopped f := by
  have way := e.step_stepped
  generalize e.step = t at way failed
  cases way with
  | halted | polled | completed => cases failed
  | unfetched | stopped =>
    cases failed
    exact ⟨_, rfl⟩

/-- A step that fails records its fault and leaves the timers as they are. -/
lemma step_of_thrown (thrown : e.step.result = .error (.stopped f)) :
    e.step.state.fault = some f ∧ e.step.state.machine.delay = e.machine.delay ∧
      e.step.state.machine.sound = e.machine.sound := by
  have way := e.step_stepped
  generalize e.step = t at way thrown
  cases way with
  | halted | polled | completed => cases thrown
  | unfetched =>
    cases thrown
    exact ⟨rfl, rfl, rfl⟩
  | stopped _ _ _ _ remnant =>
    cases thrown
    refine ⟨rfl, ?_, ?_⟩ <;> rw [remnant.rest]

/-- A step that fails leaves an engine that is halted. -/
lemma halted_of_error (failed : e.step.result = .error error) : e.step.state.halted = true := by
  obtain ⟨f, rfl⟩ := error_step failed
  exact halted_of_stopped (step_of_thrown failed).1

/-- A running engine makes the first of its steps and then, if that succeeds, the others. -/
lemma stepsFrom_succ (running : e.fault = none) (seen : Observed) (n : Nat) :
    e.stepsFrom seen (n + 1) =
      match e.step.result with
      | .ok () => e.step.state.stepsFrom (seen ++ e.step.observed) n
      | .error error => ⟨e.step.state, .error error, seen ++ e.step.observed⟩ := by
  rw [stepsFrom, halted_of_running running]
  rcases e.step with ⟨e', result, now⟩
  cases result <;> rfl

/-- An engine that has stopped makes none of the steps of a frame. -/
lemma stepsFrom_of_stopped (stopped : e.fault = some f) (seen : Observed) (n : Nat) :
    e.stepsFrom seen n = ⟨e, .ok (), seen⟩ := by
  cases n with
  | zero => rfl
  | succ n => rw [stepsFrom, if_pos (halted_of_stopped stopped)]

/-- However many steps are asked for, an engine that has stopped stays as it is. -/
lemma steps_of_stopped (stopped : e.fault = some f) (n : Nat) : e.steps n = ⟨e, .ok (), .none⟩ :=
  stepsFrom_of_stopped stopped .none n

/-- Steps can be made in two parts, the first of which ends well. -/
lemma stepsFrom_add (first : e.stepsFrom seen n = ⟨e', .ok (), seen'⟩) (k : Nat) :
    e.stepsFrom seen (n + k) = e'.stepsFrom seen' k := by
  induction n generalizing e seen with
  | zero =>
    cases first
    rw [Nat.zero_add]
  | succ n ih =>
    rw [Nat.succ_add, stepsFrom]
    rw [stepsFrom] at first
    by_cases stopped : e.halted
    -- A stopped engine makes no step in either go.
    · rw [if_pos stopped] at first ⊢
      cases first
      cases k with
      | zero => rfl
      | succ k => rw [stepsFrom, if_pos stopped]
    · rw [if_neg stopped] at first ⊢
      split
      case h_1 equal =>
        rw [equal] at first
        exact ih first
      case h_2 equal =>
        rw [equal] at first
        cases first

/-- Steps that fail have come to one that fails, and ended with it. -/
lemma stepsFrom_error (failed : e.stepsFrom seen n = ⟨e', .error error, seen'⟩) :
    ∃ k e₁ seen₁, e.stepsFrom seen k = ⟨e₁, .ok (), seen₁⟩ ∧
      e₁.step.result = .error error ∧ e₁.step.state = e' := by
  induction n generalizing e seen with
  | zero => cases failed
  | succ n ih =>
    rw [stepsFrom] at failed
    split at failed
    · cases failed
    case isFalse running =>
      split at failed
      case h_1 stepped =>
        obtain ⟨k, e₁, seen₁, before, last⟩ := ih failed
        refine ⟨k + 1, e₁, seen₁, ?_, last⟩
        rw [stepsFrom, if_neg running, stepped]
        exact before
      case h_2 stepped =>
        cases failed
        exact ⟨0, e, seen, rfl, by rw [stepped], by rw [stepped]⟩

/-- Steps that have failed are not followed by others. -/
lemma stepsFrom_add_of_error (failed : e.stepsFrom seen n = ⟨e', .error error, seen'⟩) (k : Nat) :
    e.stepsFrom seen (n + k) = ⟨e', .error error, seen'⟩ := by
  induction n generalizing e seen with
  | zero => cases failed
  | succ n ih =>
    rw [Nat.succ_add, stepsFrom]
    rw [stepsFrom] at failed
    split at failed
    · cases failed
    case isFalse running =>
      rw [if_neg running]
      split at failed
      case h_1 => exact ih failed
      case h_2 => exact failed

/-- An engine runs as long as its steps do not fail. -/
lemma fault_stepsFrom (running : e.fault = none)
    (done : e.stepsFrom seen n = ⟨e', .ok (), seen'⟩) : e'.fault = none := by
  induction n generalizing e seen with
  | zero =>
    cases done
    exact running
  | succ n ih =>
    rw [stepsFrom_succ running] at done
    cases result : e.step.result with
    | ok =>
      rw [result] at done
      exact ih (running_step running result) done
    | error =>
      rw [result] at done
      cases done

/-- The step behind some steps that succeeded. -/
lemma steps_succ_of_running (before : e.steps n = ⟨e', .ok (), seen⟩) (running : e'.fault = none) :
    e.steps (n + 1) = ⟨e'.step.state, e'.step.result, seen ++ e'.step.observed⟩ := by
  rw [steps, stepsFrom_add before, stepsFrom_succ running]
  cases e'.step.result <;> rfl

/-- Steps end where the engine has stopped. -/
lemma steps_of_halted (halted : (e.steps n).state.halted = true) (k : Nat) :
    e.steps (n + k) = e.steps n := by
  rcases made : e.steps n with ⟨e', result, seen⟩
  cases result with
  | error => exact stepsFrom_add_of_error made k
  | ok =>
    rw [made] at halted
    obtain ⟨f, stopped⟩ := Option.isSome_iff_exists.1 halted
    rw [steps, stepsFrom_add made, stepsFrom_of_stopped stopped]

/-- How many steps an engine makes below a bound: their count was below it in front of each of them,
and then it is not or the engine has stopped. -/
structure EndsAfter (e : Engine) (bound : Number) (n : Nat) : Prop where
  allows : bound.Allows n
  stops : bound.isAbove (counted n) = false ∨ (e.steps n).state.halted = true

/-- A round of the steps of a frame makes a step of an engine that runs. -/
lemma body_of_running (running : e.fault = none) (count : Nat) :
    (stepLoop bound).body count (e, seen) =
      match e.step.result with
      | .ok () => some (.next (e.step.state, seen ++ e.step.observed))
      | .error error => some (.done ⟨e.step.state, .error error, seen ++ e.step.observed⟩) := by
  simp only [stepLoop, halted_of_running running, Bool.false_eq_true, if_false]
  rcases e.step with ⟨e', result, now⟩
  cases result <;> rfl

/-- A round of the steps of a frame ends with an engine that has stopped. -/
lemma body_of_stopped (stopped : e.fault = some f) (count : Nat) :
    (stepLoop bound).body count (e, seen) = some (.done ⟨e, .ok (), seen⟩) := by
  simp only [stepLoop, halted_of_stopped stopped, if_true]

/-- What the loop of steps comes to is what as many steps come to. -/
lemma steps_of_comes {s : Engine × Observed} (comes : (stepLoop bound).Comes (e, .none) n s) :
    e.steps n = ⟨s.1, .ok (), s.2⟩ := by
  induction comes with
  | start => rfl
  | @next n s s' _ _ round ih =>
    cases stopped : s.1.fault with
    | some f =>
      rw [body_of_stopped stopped] at round
      cases round
    | none =>
      rw [body_of_running stopped] at round
      rw [steps_succ_of_running ih stopped]
      cases result : s.1.step.result <;> rw [result] at round <;> cases round
      rfl

/-- The round with which the loop of steps ends comes to what one step more comes to. -/
lemma steps_of_done {s : Engine × Observed} {count : Nat} (before : e.steps n = ⟨s.1, .ok (), s.2⟩)
    (round : (stepLoop bound).body count s = some (.done t)) :
    e.steps (n + 1) = t ∧ t.state.halted = true := by
  cases stopped : s.1.fault with
  | some f =>
    have halted := halted_of_stopped stopped
    rw [body_of_stopped stopped] at round
    cases round
    rw [steps_of_halted (by rwa [before]) 1, before]
    exact ⟨rfl, halted⟩
  | none =>
    rw [body_of_running stopped] at round
    rw [steps_succ_of_running before stopped]
    cases result : s.1.step.result <;> rw [result] at round <;> cases round
    exact ⟨rfl, halted_of_error result⟩

/-- The loop of steps goes on, or has ended with what as many steps come to. -/
lemma comes_or_ends (allows : bound.Allows n) :
    (∃ s, (stepLoop bound).Comes (e, .none) n s) ∨
      ∃ m, (stepLoop bound).Ends (e, .none) m (e.steps n) ∧ (e.steps n).state.halted = true := by
  induction n with
  | zero => exact .inl ⟨_, .start⟩
  | succ n ih =>
    obtain ⟨s, comes⟩ | ⟨m, ends, halted⟩ := ih (allows.mono (Nat.le_succ n))
    · have above := allows n (Nat.lt_succ_self n)
      rcases round : (stepLoop bound).body (counted n) s with _ | s' | t
      · -- No round of this loop goes on for ever.
        cases stopped : s.1.fault with
        | some f =>
          rw [body_of_stopped stopped] at round
          cases round
        | none =>
          rw [body_of_running stopped] at round
          cases result : s.1.step.result <;> rw [result] at round <;> cases round
      · exact .inl ⟨s', comes.next above round⟩
      · obtain ⟨rfl, halted⟩ := steps_of_done (steps_of_comes comes) round
        exact .inr ⟨n, .done comes above round, halted⟩
    · rw [steps_of_halted halted 1]
      exact .inr ⟨m, ends, halted⟩

/-- What the steps below a bound come to is what as many steps come to. -/
theorem stepsBelow_eq_some_iff :
    e.stepsBelow bound = some t ↔ ∃ n, e.EndsAfter bound n ∧ e.steps n = t := by
  rw [stepsBelow, Loop.run_eq_some_iff]
  constructor
  · rintro ⟨n, ends⟩
    cases ends with
    | reached comes below => exact ⟨n, ⟨comes.allows, .inl below⟩, steps_of_comes comes⟩
    | done comes above round =>
      obtain ⟨made, halted⟩ := steps_of_done (steps_of_comes comes) round
      exact ⟨n + 1, ⟨comes.allows.succ above, .inr (by rwa [made])⟩, made⟩
  · rintro ⟨n, ends, rfl⟩
    obtain ⟨s, comes⟩ | ⟨m, ended, -⟩ := comes_or_ends ends.allows
    · have made := steps_of_comes comes
      refine ⟨n, ?_⟩
      cases above : bound.isAbove (counted n) with
      | false =>
        rw [made]
        exact .reached comes above
      | true =>
        have halted := ends.stops.resolve_left (by rw [above]; exact Bool.noConfusion)
        rw [made] at halted ⊢
        obtain ⟨f, stopped⟩ := Option.isSome_iff_exists.1 halted
        exact .done comes above (body_of_stopped stopped _)
    · exact ⟨m, ended⟩

/-- Steps below a bound have not ended as long as the bound allows others and the engine runs. -/
lemma EndsAfter.ge {k : Nat} (h : e.EndsAfter bound n) (allows : bound.Allows k)
    (running : (e.steps k).state.halted = false) : k ≤ n := by
  refine Nat.le_of_not_lt fun less => ?_
  obtain reached | halted := h.stops
  · rw [allows n less] at reached
    cases reached
  · obtain ⟨rest, rfl⟩ := Nat.exists_eq_add_of_le (Nat.le_of_lt less)
    rw [steps_of_halted halted, halted] at running
    cases running

/-- As long as steps below a bound have not ended, their count is below it and the engine runs. -/
lemma of_not_endsAfter (endless : ∀ n, ¬ e.EndsAfter bound n) (n : Nat) :
    bound.isAbove (counted n) = true ∧ (e.steps n).state.halted = false := by
  induction n using Nat.strongRecOn with
  | _ n ih =>
    have on : ¬ (bound.isAbove (counted n) = false ∨ (e.steps n).state.halted = true) :=
      fun stops => endless n ⟨fun m less => (ih m less).1, stops⟩
    rwa [not_or, Bool.not_eq_false, Bool.not_eq_true] at on

/-- The steps below a bound have an end if and only if the bound is reached or the engine stops. -/
theorem isSome_stepsBelow_iff :
    (e.stepsBelow bound).isSome = true ↔
      bound.isReached = true ∨ ∃ n, (e.steps n).state.halted = true := by
  rw [Option.isSome_iff_exists]
  simp only [stepsBelow_eq_some_iff]
  constructor
  · rintro ⟨_, n, ends, -⟩
    exact ends.stops.imp Number.isReached_of_not_isAbove fun halted => ⟨n, halted⟩
  · intro ends
    by_contra never
    have on := of_not_endsAfter fun n ends => never ⟨_, n, ends, rfl⟩
    obtain reached | ⟨n, halted⟩ := ends
    · rw [Number.isReached_iff, ← Number.counted_of_le (Nat.le_refl _), (on _).1] at reached
      cases reached
    · rw [(on n).2] at halted
      cases halted

/-- The steps below a natural number that counting comes to are as many. -/
lemma stepsBelow_nat {k : Nat} (le : k ≤ 2 ^ 53) :
    e.stepsBelow (.finite k) = some (e.steps k) := by
  refine stepsBelow_eq_some_iff.2 ⟨k, ⟨fun m less => ?_, .inl ?_⟩, rfl⟩
  · rw [Number.isAbove_nat, decide_eq_true (Nat.lt_of_le_of_lt (Number.counted_le m) less)]
  · rw [Number.counted_of_le le, Number.isAbove_nat, decide_eq_false (Nat.lt_irrefl k)]

end Chip8.Engine
