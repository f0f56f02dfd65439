import Mathlib.Order.Lattice.Nat
import Chip8.Proofs.Spinning
import Chip8.Proofs.Stopping
/-!
# Frames

A frame makes as many steps as the settings say, and then the timers tick once. The steps of a frame
are those that a host could ask for one by one (`Session.steps_afterSteps`), and each of them
completes an instruction unless it asks in vain for the key that the program waits for
(`Engine.executed_step`). `frame_eq_steps` puts this together, for frames in which no step fails,
for those in which one does, and for those that go on for ever since counting does not come to the
number in the settings. `Session.unrolled` takes the frames among some actions apart, so that what
is said of each step of a run need not speak about frames (`after_unrolled`).
-/

namespace Chip8

namespace Engine

variable {e : Engine}

end Engine

namespace Session

variable {s : Session} {n : Nat}

/-- The steps of a frame leave the session where the steps that a host asks for leave it. Those that
are left when the engine stops do nothing. -/
lemma after_replicate_step (s : Session) (seen : Observed) (n : Nat) :
    s.after (List.replicate n .step) = s.withEngine (s.engine.stepsFrom seen n).state := by
  induction n generalizing s seen with
  | zero => rfl
  | succ n ih =>
    have later := ih s.step.state
    rw [List.replicate_succ]
    change s.step.state.after (List.replicate n .step) = _
    cases running : s.engine.fault with
    | some f =>
      have still : s.step.state = s := congrArg (fun t : Transition Engine Unit =>
        s.withEngine t.state) (Engine.step_of_stopped running)
      rw [still, ih s seen, Engine.stepsFrom_of_stopped running,
        Engine.stepsFrom_of_stopped running]
    | none =>
      rw [Engine.stepsFrom_succ running]
      cases result : s.engine.step.result with
      | ok => exact later _
      | error error =>
        obtain ⟨f, rfl⟩ := Engine.error_step result
        have stopped : s.step.state.engine.fault = some f := (Engine.step_of_thrown result).1
        rw [later .none, Engine.stepsFrom_of_stopped stopped]
        rfl

/-- The session after some steps that a host has asked for. -/
def afterSteps (s : Session) (n : Nat) : Session := s.after (List.replicate n .step)

/-- Whether the engine has stopped after some steps is the same for a frame and for a host. -/
lemma halted_steps (s : Session) (n : Nat) :
    (s.engine.steps n).state.halted = (s.afterSteps n).engine.halted := by
  rw [afterSteps, after_replicate_step s .none]
  rfl

/-- One step more is made behind the others. -/
lemma afterSteps_succ (s : Session) (n : Nat) :
    s.afterSteps (n + 1) = (s.afterSteps n).step.state := by
  rw [afterSteps, List.replicate_succ', after_append]
  rfl

/-- A tick changes nothing but the engine. -/
lemma tick_of_eq_withEngine {t : Session} (same : t = s.withEngine t.engine) :
    t.tick = s.withEngine t.engine.ticked := congrArg tick same

/-- Any number of steps changes nothing but the engine. -/
lemma afterSteps_eq_withEngine (s : Session) (n : Nat) :
    s.afterSteps n = s.withEngine (s.afterSteps n).engine := by
  rw [afterSteps, s.after_replicate_step .none]
  rfl

/-- After steps that succeed the engine still runs. -/
lemma running_afterSteps (running : s.engine.fault = none)
    (done : ∀ j < n, (s.afterSteps j).step.result = .ok ()) :
    (s.afterSteps n).engine.fault = none := by
  induction n with
  | zero => exact running
  | succ n ih =>
    rw [afterSteps_succ]
    exact Engine.running_step (ih fun j less => done j (Nat.lt_succ_of_lt less))
      (done n (Nat.lt_succ_self n))

/-- Steps that succeed are the steps of a frame. -/
lemma steps_afterSteps (running : s.engine.fault = none)
    (done : ∀ j < n, (s.afterSteps j).step.result = .ok ()) :
    ∃ seen, s.engine.steps n = ⟨(s.afterSteps n).engine, .ok (), seen⟩ := by
  induction n with
  | zero => exact ⟨.none, rfl⟩
  | succ n ih =>
    have before : ∀ j < n, (s.afterSteps j).step.result = .ok () :=
      fun j less => done j (Nat.lt_succ_of_lt less)
    obtain ⟨seen, steps⟩ := ih before
    have last : (s.afterSteps n).engine.step.result = .ok () := done n (Nat.lt_succ_self n)
    refine ⟨seen ++ (s.afterSteps n).engine.step.observed, ?_⟩
    -- A frame takes its steps off in front, a host adds one at the end.
    rw [Engine.steps, Engine.stepsFrom_add steps 1,
      Engine.stepsFrom_succ (running_afterSteps running before), last, afterSteps_succ]
    rfl

/-- A frame in which all steps succeed leaves what they leave and then a tick of the timers. -/
lemma frame_of_afterSteps {k : Nat} (running : s.engine.fault = none)
    (configured : s.settings.instructionsPerFrame = .finite k) (counts : k ≤ 2 ^ 53)
    (done : ∀ j < k, (s.afterSteps j).step.result = .ok ()) :
    ∃ seen, s.frame = some ⟨(s.afterSteps k).tick,
      .ok ⟨(s.afterSteps k).engine.executed - s.engine.executed, false⟩, seen⟩ := by
  obtain ⟨seen, steps⟩ := steps_afterSteps running done
  have halted := Engine.halted_of_running (running_afterSteps running done)
  have whole : s.engine.stepsBelow s.settings.instructionsPerFrame =
      some ⟨(s.afterSteps k).engine, .ok (), seen⟩ := by
    rw [configured, Engine.stepsBelow_nat counts, steps]
  rw [frame_of_ok whole, halted, tick_of_eq_withEngine (afterSteps_eq_withEngine s k)]
  exact ⟨seen, rfl⟩

/-- How many steps a frame makes that has an end. -/
noncomputable def frameSteps (s : Session) : Nat :=
  sInf {n | s.engine.EndsAfter s.settings.instructionsPerFrame n}

/-- What a host could ask for instead of an action: for a frame its steps one by one and, unless one
of them fails, a tick. A frame that has no end has no parts. -/
noncomputable def parts (s : Session) : Action → List Action
  | .frame =>
    match s.frame with
    | none => []
    | some t => List.replicate s.frameSteps .step ++ if t.result.isOk then [.tick] else []
  | a => [a]

/-- Some actions with each frame taken apart. -/
noncomputable def unrolled (s : Session) : List Action → List Action
  | [] => []
  | a :: rest => s.parts a ++ (s.act a).state.unrolled rest

/-- The steps of a frame that has an end come to what as many steps come to. -/
lemma stepsBelow_frameSteps {t : Transition Engine Unit}
    (done : s.engine.stepsBelow s.settings.instructionsPerFrame = some t) :
    s.engine.steps s.frameSteps = t := by
  obtain ⟨n, ends, -⟩ := Engine.stepsBelow_eq_some_iff.1 done
  have least : s.engine.EndsAfter s.settings.instructionsPerFrame s.frameSteps :=
    Nat.sInf_mem ⟨n, ends⟩
  have same := Engine.stepsBelow_eq_some_iff.2 ⟨_, least, rfl⟩
  rw [done] at same
  exact (Option.some.inj same).symm

/-- The parts of a frame that has an end are its steps and, if they succeed, a tick. -/
lemma parts_frame {t : Transition Session FrameReport} (done : s.frame = some t) :
    s.parts .frame =
      List.replicate s.frameSteps .step ++ if t.result.isOk then [.tick] else [] := by
  simp only [parts, done]

/-- A frame that has no end has no parts. -/
lemma parts_frame_of_endless (endless : s.frame = none) : s.parts .frame = [] := by
  simp only [parts, endless]

/-- An action comes to what its parts come to. -/
lemma after_parts (s : Session) (a : Action) : s.after (s.parts a) = (s.act a).state := by
  cases a with
  | frame =>
    rcases run : s.engine.stepsBelow s.settings.instructionsPerFrame with _ | ⟨e, error | _, seen⟩
    · have endless := frame_of_endless run
      rw [parts_frame_of_endless endless, act_frame_of_endless endless]
      rfl
    · have done := frame_of_error run
      rw [parts_frame done, act_frame done, after_append, after_replicate_step s .none,
        show s.engine.stepsFrom .none s.frameSteps = _ from stepsBelow_frameSteps run]
      rfl
    · have done := frame_of_ok run
      rw [parts_frame done, act_frame done, after_append, after_replicate_step s .none,
        show s.engine.stepsFrom .none s.frameSteps = _ from stepsBelow_frameSteps run]
      rfl
  | _ => rfl

/-- The parts of an action are steps and ticks, or the action itself. -/
lemma mem_parts {a b : Action} (member : b ∈ s.parts a) :
    b = .step ∨ b = .tick ∨ b = a ∧ a ≠ .frame := by
  cases a with
  | frame =>
    cases done : s.frame with
    | none =>
      rw [parts_frame_of_endless done] at member
      cases member
    | some t =>
      rw [parts_frame done, List.mem_append] at member
      obtain step | tick := member
      · exact .inl (List.eq_of_mem_replicate step)
      · split at tick
        · exact .inr (.inl (List.mem_singleton.1 tick))
        · cases tick
  | _ => exact .inr (.inr ⟨List.mem_singleton.1 member, Action.noConfusion⟩)

/-- Actions come to the same with their frames taken apart. -/
lemma after_unrolled (s : Session) (acts : List Action) :
    s.after (s.unrolled acts) = s.after acts := by
  induction acts generalizing s with
  | nil => rfl
  | cons a rest ih =>
    rw [unrolled, after_append, after_parts, ih]
    rfl

/-- There are no frames left among actions that have been taken apart. -/
lemma ne_frame_of_mem_unrolled {acts : List Action} {b : Action} (member : b ∈ s.unrolled acts) :
    b ≠ .frame := by
  induction acts generalizing s with
  | nil => cases member
  | cons a rest ih =>
    rw [unrolled, List.mem_append] at member
    obtain first | later := member
    · obtain rfl | rfl | ⟨rfl, whole⟩ := mem_parts first
      · exact Action.noConfusion
      · exact Action.noConfusion
      · exact whole
    · exact ih later

/-- Parked programs do not fail. -/
lemma parked_afterSteps (parked : s.engine.Parked) (j : Nat) :
    (s.afterSteps j).engine.Parked ∧ (s.afterSteps j).step.result = .ok () := by
  obtain ⟨seen, made⟩ := Engine.stepsFrom_parked parked .none j
  have still : (s.afterSteps j).engine.Parked := by
    rw [afterSteps, s.after_replicate_step .none, made]
    exact parked
  obtain ⟨seen', stepped⟩ := Engine.step_parked still
  exact ⟨still, congrArg Transition.result stepped⟩

end Session

end Chip8
