import Chip8.Proofs.Frames
import Chip8.Proofs.Precedence
import Chip8.Proofs.Spinning
/-!
# The budget of a frame

The loop of a frame counts its steps in double precision (`Session.Loops`), where counting gets no
further than `2 ^ 53` and digits are rounded from there on as well. It ends after as many steps as
the frame makes (`Session.loops_iff`). So a budget that is read from a text is used as it is written
exactly up to that number (`resolve_usable_iff`): with a larger one the frame goes on for ever
unless the program fails.
-/

namespace Chip8

namespace Session

variable {s s' : Session} {n : Nat}

/-- How the loop of a frame goes on from a count that it keeps in double precision. It ends when the
count has reached the bound or the engine has stopped, and otherwise it makes a step and counts it.
`Loops bound count s n s'` says that it ends after `n` steps and leaves `s'`. -/
inductive Loops (bound : Number) : Rat → Session → Nat → Session → Prop where
  | ended {count : Rat} {s : Session} :
    (bound.isAbove count && !s.engine.halted) = false →
    Loops bound count s 0 s
  | counted {count next : Rat} {s s' : Session} {n : Nat} :
    (bound.isAbove count && !s.engine.halted) = true →
    s.step.result = .ok () →
    Number.binary64 (count + 1) = .finite next →
    Loops bound next s.step.state n s' →
    Loops bound count s (n + 1) s'

/-- A running session of whose steps none fails. -/
def IsFaultless (s : Session) : Prop :=
  s.engine.fault = none ∧ ∀ j, (s.afterSteps j).step.result = .ok ()

/-- A session whose steps never fail is not halted after any number of them. -/
lemma IsFaultless.running (h : s.IsFaultless) (n : Nat) : (s.afterSteps n).engine.halted = false :=
  Engine.halted_of_running (running_afterSteps h.1 fun j _ => h.2 j)

/-- The loop with a count in double precision ends after as many steps as the frame makes. -/
theorem loops_iff {bound : Number} (running : s.engine.fault = none) :
    Loops bound 0 s n s' ↔ s.engine.EndsAfter bound n ∧
      (∀ j < n, (s.afterSteps j).step.result = .ok ()) ∧ s' = s.afterSteps n := by
  -- The induction is on the steps that are left, the count being that of the steps made.
  suffices key : ∀ k, bound.Allows k → (∀ j < k, (s.afterSteps j).step.result = .ok ()) →
      (Loops bound (Number.counted k : Nat) (s.afterSteps k) n s' ↔
        s.engine.EndsAfter bound (k + n) ∧
          (∀ j < k + n, (s.afterSteps j).step.result = .ok ()) ∧ s' = s.afterSteps (k + n)) by
    have start := key 0 Number.allows_zero fun j less => absurd less (Nat.not_lt_zero j)
    rwa [Nat.zero_add] at start
  induction n with
  | zero =>
    intro k allows done
    rw [Nat.add_zero]
    constructor
    · rintro ⟨stops⟩
      refine ⟨⟨allows, ?_⟩, done, rfl⟩
      rwa [Bool.and_eq_false_iff, Bool.not_eq_false', ← halted_steps] at stops
    · rintro ⟨ends, -, rfl⟩
      refine .ended ?_
      rw [Bool.and_eq_false_iff, Bool.not_eq_false', ← halted_steps]
      exact ends.stops
  | succ n ih =>
    intro k allows done
    rw [← Nat.add_assoc, Nat.add_right_comm]
    constructor
    · rintro (_ | ⟨on, stepped, next, rest⟩)
      rw [Number.binary64_counted, Number.finite.injEq] at next
      rw [← next, ← afterSteps_succ] at rest
      refine (ih (k + 1) (allows.succ (Bool.and_eq_true_iff.1 on).1) ?_).1 rest
      intro j less
      obtain earlier | rfl := Nat.lt_or_eq_of_le (Nat.le_of_lt_succ less)
      · exact done j earlier
      · exact stepped
    · rintro ⟨ends, succeed, rfl⟩
      have above := ends.allows k (by omega)
      have still := Engine.halted_of_running (running_afterSteps running done)
      refine .counted ?_ (succeed k (by omega)) (Number.binary64_counted k) ?_
      · rw [above, still]
        rfl
      · rw [← afterSteps_succ]
        exact (ih (k + 1) (ends.allows.mono (by omega)) fun j less => succeed j (by omega)).2
          ⟨ends, succeed, rfl⟩

/-- A parked program is faultless. -/
lemma isFaultless_of_parked (parked : s.engine.Parked) : s.IsFaultless :=
  ⟨parked.1, fun j => (parked_afterSteps parked j).2⟩

/-- There are programs that never fail, whatever the settings. -/
lemma exists_isFaultless (settings : Settings) :
    ∃ s : Session, s.settings = settings ∧ s.IsFaultless := by
  obtain ⟨s, same, begins⟩ : ∃ s : Session, s.settings = settings ∧
      s.Begins ⟨[0x12, 0x00], by decide⟩ :=
    ⟨_, rfl, begins_boot (.start settings .off (.cycle [])) _⟩
  have fetches : s.machine.view.Fetches 0x200 0x1200 := begins.fetches ⟨by decide, rfl⟩
  exact ⟨s, same, isFaultless_of_parked ⟨begins.running, begins.awake, _, _, fetches, rfl⟩⟩

end Session

namespace Settings

variable {options : Options} {env : Environment} {settings : Settings} {text : String}

/-- The text from which the budget is read, if it is not the default. -/
def budgetText (options : Options) (env : Environment) : Option String :=
  (options.instructionsPerFrame.map Number.text).or (Environment.given env.instructionsPerFrame)

/-- Whether settings have a budget of `v` instructions that serves: in any session whose program
does not fail, the loop of a frame ends after as many steps, and then the timers tick. -/
def IsUsable (settings : Settings) (v : Nat) : Prop :=
  settings.instructionsPerFrame = .finite v ∧
    ∀ s : Session, s.settings = settings → s.IsFaultless →
      Session.Loops settings.instructionsPerFrame 0 s v (s.afterSteps v) ∧
        ∃ shown seen, s.frame = some ⟨(s.afterSteps v).tick, .ok shown, seen⟩

/-- A budget can be used if counting comes to it. -/
lemma isUsable_of_le {v : Nat} (budget : settings.instructionsPerFrame = .finite v)
    (le : v ≤ 2 ^ 53) : settings.IsUsable v := by
  refine ⟨budget, ?_⟩
  rintro s rfl faultless
  have reached : (Number.finite v).isAbove (Number.counted v) = false := by
    rw [Number.counted_of_le le, Number.isAbove_nat, decide_eq_false (Nat.lt_irrefl v)]
  have ends : s.engine.EndsAfter s.settings.instructionsPerFrame v := by
    rw [budget]
    exact ⟨Number.allows_nat (.inl (Nat.le_refl v)), .inl reached⟩
  obtain ⟨seen, framed⟩ :=
    Session.frame_of_afterSteps faultless.1 budget le fun j _ => faultless.2 j
  exact ⟨(Session.loops_iff faultless.1).2 ⟨ends, fun j _ => faultless.2 j, rfl⟩, _, seen, framed⟩

/-- Counting comes to every budget that can be used. -/
lemma IsUsable.le {v : Nat} (usable : settings.IsUsable v) : v ≤ 2 ^ 53 := by
  obtain ⟨budget, loops⟩ := usable
  obtain ⟨s, same, faultless⟩ := Session.exists_isFaultless settings
  obtain ⟨ends, -⟩ := (Session.loops_iff faultless.1).1 (loops s same faultless).1
  rw [budget] at ends
  obtain reached | halted := ends.stops
  · exact Number.isReached_nat.1 (Number.isReached_of_not_isAbove reached)
  · rw [Session.halted_steps, faultless.running] at halted
    cases halted

/-- A budget that is not the default is the nearest double to what its text says. -/
lemma budget_of_budgetText (done : resolve options env = .ok settings)
    (asked : budgetText options env = some text) :
    ∃ v : Nat, Number.Denotes text v ∧ 0 < v ∧
      settings.instructionsPerFrame = Number.binary64 v := by
  obtain ⟨base, found, option, budget, -⟩ := resolve_eq_ok_iff.1 done
  rw [budgetText] at asked
  cases given : options.instructionsPerFrame with
  | some n =>
    rw [given] at asked budget
    obtain rfl : n.text = text := Option.some.inj asked
    obtain ⟨v, numeral, positive⟩ := option n given
    refine ⟨v, numeral, positive, budget.trans ?_⟩
    exact (Number.binary64_of_denotes_text numeral positive).symm
  | none =>
    rw [given] at asked budget
    have read := (ofEnvironment_eq_ok_iff.1 found).1
    rw [lookUp, show Environment.given env.instructionsPerFrame = some text from asked] at read
    obtain ⟨v, numeral, positive, same⟩ := readBudget_eq_ok_iff.1 read
    exact ⟨v, numeral, positive, budget.trans same⟩

/-- A budget that is accepted is at least one, and the double nearest to the value of its text. It
can be used as it is written if and only if the value is at most `2 ^ 53`. -/
theorem resolve_usable_iff (done : resolve options env = .ok settings)
    (asked : budgetText options env = some text) :
    ∃ v : Nat, Number.Denotes text v ∧ 1 ≤ v ∧
      settings.instructionsPerFrame = Number.binary64 v ∧ (settings.IsUsable v ↔ v ≤ 2 ^ 53) := by
  obtain ⟨v, numeral, positive, budget⟩ := budget_of_budgetText done asked
  refine ⟨v, numeral, positive, budget, IsUsable.le, fun le => ?_⟩
  exact isUsable_of_le (budget.trans (Number.binary64_of_le le)) le

/-- The largest budget that can be used as it is written. -/
theorem resolve_usable_iff_largest :
    let env : Environment := { instructionsPerFrame := some " 9007199254740992" }
    ∃ settings, resolve {} env = .ok settings ∧ budgetText {} env = some " 9007199254740992" ∧
      settings.IsUsable 9007199254740992 := by
  intro env
  have done : resolve {} env = .ok { instructionsPerFrame := .finite 9007199254740992 } := by
    decide +kernel
  have asked : budgetText {} env = some " 9007199254740992" := rfl
  refine ⟨_, done, asked, ?_⟩
  obtain ⟨v, numeral, -, -, usable⟩ := resolve_usable_iff done asked
  have value : Number.Denotes " 9007199254740992" 9007199254740992 :=
    Number.denotes_iff_trimChars.2
      ⟨by decide +kernel, List.all_eq_true.1 (by decide +kernel), by decide +kernel⟩
  obtain rfl := numeral.unique value
  exact usable.2 (by omega)

/-- The next budget is accepted too, but another one is used instead. -/
theorem resolve_of_next :
    resolve {} { instructionsPerFrame := some "9007199254740993" } =
      .ok { instructionsPerFrame := .finite 9007199254740992 } ∧
    Number.Denotes "9007199254740993" 9007199254740993 ∧
    ¬ IsUsable { instructionsPerFrame := .finite 9007199254740992 } 9007199254740993 :=
  ⟨by decide +kernel,
    Number.denotes_iff_trimChars.2
      ⟨by decide +kernel, List.all_eq_true.1 (by decide +kernel), by decide +kernel⟩,
    fun usable => absurd usable.le (by omega)⟩

end Settings

end Chip8
