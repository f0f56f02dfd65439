import Chip8.Proofs.Faults
import Chip8.Proofs.KeyWait
/-!
# Engines that have stopped

A fault stops the engine for good. `Engine.Rests` says what may still change afterwards: the timers
run down with every tick, keys go down and up, and a host may set hook and policy. Everything that a
host can do without a new start keeps to that (`Session.rests_after`). `stopped_for_good` is the
main result, from the step that failed on.
-/

namespace Chip8

/-- Whether an action ticks the timers of an engine that has stopped. -/
def Action.ticks : Action → Bool
  | .tick | .frame => true
  | _ => false

/-- A timer goes down to zero and stays there. -/
lemma Machine.toNat_decay (timer : UInt8) : (decay timer).toNat = timer.toNat - 1 := by
  rw [decay]
  split
  case isTrue zero => rw [zero]; rfl
  case isFalse more =>
    have positive : 1 ≤ timer := by
      rw [UInt8.le_iff_toNat_le]
      exact Nat.one_le_iff_ne_zero.2 fun zero => more (UInt8.toNat_inj.1 zero)
    exact UInt8.toNat_sub_of_le _ _ positive

namespace Engine

variable {e e' : Engine} {f : Fault} {n : Nat}

/-- What an engine that has stopped can have become after some ticks. The timers have run down,
keys, hook and policy may be others, and everything else is as it was. -/
structure Rests (e : Engine) (ticks : Nat) (e' : Engine) : Prop where
  rest : e' = { e with
    machine := { e.machine with
      keypad := e'.machine.keypad
      delay := e'.machine.delay
      sound := e'.machine.sound }
    policy := e'.policy
    hooked := e'.hooked }
  delay : e'.machine.delay.toNat = e.machine.delay.toNat - ticks
  sound : e'.machine.sound.toNat = e.machine.sound.toNat - ticks

/-- An engine rests from itself on. -/
lemma Rests.refl (e : Engine) : e.Rests 0 e := ⟨rfl, rfl, rfl⟩

/-- What an engine was stopped by stays the same. -/
lemma Rests.fault_eq (h : e.Rests n e') : e'.fault = e.fault := by rw [h.rest]

/-- A tick only runs the timers down. -/
lemma Rests.ticked (h : e.Rests n e') : e.Rests (n + 1) e'.ticked where
  rest := by
    conv_lhs => rw [Engine.ticked, h.rest]
    rfl
  delay := by
    refine (Machine.toNat_decay _).trans ?_
    rw [h.delay, Nat.sub_sub]
  sound := by
    refine (Machine.toNat_decay _).trans ?_
    rw [h.sound, Nat.sub_sub]

/-- An engine rests whatever happens to its keys. -/
lemma Rests.withKeypad (h : e.Rests n e') (keypad : Keypad) : e.Rests n (e'.withKeypad keypad) where
  rest := by
    conv_lhs => rw [Engine.withKeypad, h.rest]
    rfl
  delay := h.delay
  sound := h.sound

/-- An engine rests whether or not it is watched from then on. -/
lemma Rests.hook (h : e.Rests n e') (on : Bool) : e.Rests n { e' with hooked := on } where
  rest := by
    conv_lhs => rw [h.rest]
  delay := h.delay
  sound := h.sound

/-- An engine rests whatever the policy from then on. -/
lemma Rests.policy (h : e.Rests n e') (policy : UnknownPolicy) :
    e.Rests n { e' with policy := policy } where
  rest := by
    conv_lhs => rw [h.rest]
  delay := h.delay
  sound := h.sound

end Engine

namespace Session

variable {s : Session} {e : Engine} {f : Fault} {n : Nat} {a : Action}

/-- A frame of an engine that has stopped is a tick, whatever the budget. -/
lemma frame_of_stopped (stopped : s.engine.fault = some f) :
    s.frame = some ⟨s.tick, .ok ⟨0, true⟩, .none⟩ := by
  have halted := Engine.halted_of_stopped stopped
  have none_ : s.engine.EndsAfter s.settings.instructionsPerFrame 0 :=
    ⟨Number.allows_zero, .inr halted⟩
  rw [frame_of_ok (Engine.stepsBelow_eq_some_iff.2 ⟨0, none_, rfl⟩), Nat.sub_self, halted]
  rfl

/-- What an action does to a session whose engine has stopped: at most it ticks. -/
lemma rests_act (stopped : s.engine.fault = some f) (keeps : a.KeepsProgram)
    (rests : e.Rests n s.engine) :
    e.Rests (n + if a.ticks then 1 else 0) (s.act a).state.engine := by
  cases a with
  | load | reset => exact keeps.elim
  | step =>
    simp only [act, step, Engine.step_of_stopped stopped]
    exact rests
  | frame =>
    rw [act_frame (frame_of_stopped stopped)]
    exact rests.ticked
  | tick => exact rests.ticked
  | setKey index down =>
    cases known : Digit.ofNumber? index with
    | none =>
      rw [act_setKey_unknown known]
      exact rests
    | some key =>
      rw [act_setKey known]
      exact rests.withKeypad _
  | releaseKeys => exact rests.withKeypad _
  | setHook on => exact rests.hook on
  | setPolicy policy => exact rests.policy policy

/-- An engine that has stopped rests, and its timers run down with the ticks. -/
lemma rests_after (stopped : s.engine.fault = some f) {acts : List Action}
    (keep : ∀ b ∈ acts, b.KeepsProgram) (rests : e.Rests n s.engine) :
    e.Rests (n + acts.countP Action.ticks) (s.after acts).engine := by
  induction acts generalizing s n with
  | nil => exact rests
  | cons a rest ih =>
    obtain ⟨first, others⟩ := List.forall_mem_cons.1 keep
    have next := rests_act stopped first rests
    have still : (s.act a).state.engine.fault = some f := by
      rw [next.fault_eq, ← rests.fault_eq, stopped]
    rw [List.countP_cons, Nat.add_comm (List.countP _ _), ← Nat.add_assoc]
    exact ih still others next

/-- What fails with a fault is a step, either asked for or of a frame. -/
lemma act_thrown (thrown : (s.act a).result = .error (.stopped f)) :
    ∃ k e seen, s.engine.steps k = ⟨e, .ok (), seen⟩ ∧
      e.step.result = .error (.stopped f) ∧ (s.act a).state = s.withEngine e.step.state := by
  cases a with
  | step =>
    refine ⟨0, s.engine, .none, rfl, ?_, rfl⟩
    simp only [act, step] at thrown
    cases failed : s.engine.step.result with
    | ok => rw [failed] at thrown; cases thrown
    | error error => rw [failed] at thrown; cases thrown; rfl
  | frame =>
    rcases done : s.frame with _ | t
    · rw [act_frame_of_endless done] at thrown
      cases thrown
    · rw [act_frame done] at thrown ⊢
      cases frame_framed done with
      | ticked => cases thrown
      | failed _ run =>
        cases thrown
        obtain ⟨k, e, before, steps, failed, rfl⟩ := Engine.stepsFrom_error run
        exact ⟨k, e, before, steps, failed, rfl⟩
  | load bytes =>
    rw [act] at thrown
    rcases loaded : s.load bytes with ⟨_, _ | _⟩ <;> rw [loaded] at thrown <;> cases thrown
  | setKey index down =>
    rw [act] at thrown
    rcases pressed : s.setKey index down with ⟨_, _ | _⟩ <;> rw [pressed] at thrown <;> cases thrown
  | reset | tick | releaseKeys | setHook | setPolicy => cases thrown

/-- A frame ends at once if its first step fails. -/
lemma act_frame_of_step (running : s.engine.fault = none)
    (budget : s.settings.instructionsPerFrame.isAbove 0 = true) {error : Error}
    (failed : s.engine.step.result = .error error) :
    ∃ seen, s.act .frame = ⟨s.withEngine s.engine.step.state, .error error, seen⟩ := by
  have made : s.engine.steps 1 =
      ⟨s.engine.step.state, .error error, .none ++ s.engine.step.observed⟩ := by
    rw [Engine.steps_succ_of_running (n := 0) rfl running, failed]
  have ends : s.engine.EndsAfter s.settings.instructionsPerFrame 1 := by
    refine ⟨Number.allows_zero.succ budget, .inr ?_⟩
    rw [made]
    exact Engine.halted_of_error failed
  have framed := frame_of_error (Engine.stepsBelow_eq_some_iff.2 ⟨1, ends, made⟩)
  exact ⟨_, act_frame framed⟩

/-- A stopped engine does not fail again. -/
lemma act_not_thrown (stopped : s.engine.fault = some f) {g : Fault} :
    (s.act a).result ≠ .error (.stopped g) := by
  intro again
  obtain ⟨k, e, seen, steps, failed, -⟩ := act_thrown again
  rw [Engine.steps_of_stopped stopped] at steps
  cases steps
  rw [Engine.step_of_stopped stopped] at failed
  cases failed

/-- A fault is thrown by a step and leaves the timers as they were in front of that step, whether or
not it was a step of a frame. From then on, whatever a host does short of a new start, the engine
rests: nothing but ticks of the timers gets through, no fault is thrown again, and a frame reports
that nothing was completed and that the engine has stopped. -/
theorem stopped_for_good {s t : Session} {a : Action} {f : Fault} {seen : Observed}
    (thrown : s.act a = ⟨t, .error (.stopped f), seen⟩) :
    t.engine.fault = some f ∧
      (∃ k e seen', s.engine.steps k = ⟨e, .ok (), seen'⟩ ∧
        e.step.result = .error (.stopped f) ∧ t = s.withEngine e.step.state ∧
        t.machine.delay = e.machine.delay ∧ t.machine.sound = e.machine.sound) ∧
      ∀ acts : List Action, (∀ b ∈ acts, b.KeepsProgram) →
        t.engine.Rests (acts.countP Action.ticks) (t.after acts).engine ∧
          (t.after acts).frame = some ⟨(t.after acts).tick, .ok ⟨0, true⟩, .none⟩ ∧
          ∀ b g, ((t.after acts).act b).result ≠ .error (.stopped g) := by
  obtain ⟨k, e, seen', steps, failed, left⟩ := act_thrown (congrArg Transition.result thrown)
  obtain rfl : t = s.withEngine e.step.state := by rw [← left, thrown]
  obtain ⟨stopped, delay, sound⟩ := Engine.step_of_thrown failed
  refine ⟨stopped, ⟨k, e, seen', steps, failed, rfl, delay, sound⟩, ?_⟩
  intro acts keep
  have rests := rests_after (s := s.withEngine e.step.state) stopped keep (.refl _)
  rw [Nat.zero_add] at rests
  have still := rests.fault_eq.trans stopped
  exact ⟨rests, frame_of_stopped still, fun b g => act_not_thrown still⟩

/-- A program that fails in its first frame, and what is left of it after a tick and another frame.
-/
theorem stopped_for_good_underflow :
    ∃ s t : Session, ∃ f seen, s.act .frame = ⟨t, .error (.stopped f), seen⟩ ∧
      s.machine.delay = 3 ∧ t.machine.delay = 3 ∧
      (t.after [.tick, .setPolicy .lenient, .frame]).machine.delay.toNat = 1 ∧
      ∃ u, (t.after [.tick, .setPolicy .lenient, .frame]).frame =
        some ⟨u, .ok ⟨0, true⟩, .none⟩ := by
  obtain ⟨s₀, begins, empty, budget⟩ : ∃ s : Session, s.Begins ⟨[0x00, 0xEE], by decide⟩ ∧
      s.machine.stack = [] ∧ s.settings.instructionsPerFrame.isAbove 0 = true :=
    ⟨_, begins_boot (.start {} .off (.cycle [])) _, rfl, rfl⟩
  let s := s₀.withMachine { s₀.machine with delay := 3 }
  have running : s.engine.fault = none := begins.running
  have awake : s.machine.keyWait = none := begins.awake
  have fetches : s.machine.view.Fetches 0x200 0x00EE := begins.fetches ⟨by decide, rfl⟩
  have failed : s.engine.step.result =
      .error (.stopped ⟨.machine .stackUnderflow, s.machine.pc, 0x00EE⟩) :=
    (Engine.step_eq_error_iff running awake).2
      (.inr ⟨Machine.wordAt_pc_eq_ok_iff.2 ⟨_, fetches⟩, if_pos empty⟩)
  obtain ⟨seen, thrown⟩ := act_frame_of_step running budget failed
  have delay : s.engine.step.state.machine.delay = 3 := (Engine.step_of_thrown failed).2.1
  obtain ⟨rests, frame, -⟩ := (stopped_for_good thrown).2.2 [.tick, .setPolicy .lenient, .frame]
    (by simp only [List.forall_mem_cons, Action.KeepsProgram, List.not_mem_nil, false_imp_iff,
      implies_true, and_self])
  refine ⟨s, _, _, _, thrown, rfl, delay, ?_, _, frame⟩
  have left := rests.delay
  rw [show (s.withEngine s.engine.step.state).engine.machine.delay = 3 from delay] at left
  exact left

end Session

end Chip8
