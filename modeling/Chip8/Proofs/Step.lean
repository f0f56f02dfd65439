import Chip8.Engine
import Chip8.Proofs.Execute
/-!
# What a step can do

`Engine.Stepped` lists the ways in which a step can go: a stopped engine does nothing, a waiting one
asks for its key, and any other fetches a word and executes it, which can fail at the fetch or at an
obstacle and else completes the instruction. `step_stepped` says that every step is one of these.
Whatever a step is to preserve is proved by going through them.
-/

namespace Chip8

namespace Instruction

/-- What keeps an instruction from being executed does not depend on the program counter. -/
lemma obstacle_skip (ins : Instruction) (policy : UnknownPolicy) (m : Machine) :
    ins.obstacle policy m.skip = ins.obstacle policy m := by
  cases ins <;> rfl

/-- The bytes that an instruction stores do not depend on the program counter. -/
lemma stored?_skip (ins : Instruction) (m : Machine) (k : Nat) :
    ins.stored? m.skip k = ins.stored? m k := by
  cases ins <;> rfl

/-- The values that an instruction loads do not depend on the program counter. -/
lemma loaded?_skip (ins : Instruction) (m : Machine) (x : Register) :
    ins.loaded? m.skip x = ins.loaded? m x := by
  cases ins <;> rfl

/-- What is left of an instruction that has failed behind the skip is left of it in front as well.
-/
lemma Remnant.of_skip {ins : Instruction} {m m' : Machine} (h : Remnant ins m.skip m') :
    Remnant ins m { m' with pc := m.pc } where
  rest := by
    rw [h.rest]
    rfl
  protection := h.protection
  bytes k := by
    rw [← stored?_skip]
    exact h.bytes k
  values x := by
    rw [← loaded?_skip]
    exact h.values x

end Instruction

namespace Engine

/-- What executing a word at the program counter leaves behind. -/
def outcome (e : Engine) (word : UInt16) : Outcome :=
  (Instruction.decode word).execute e.dialect e.policy e.machine.pc e.machine.skip e.random

/-- The engine after the instruction of a word was completed. -/
def completed (e : Engine) (word : UInt16) : Engine :=
  { e with
    machine := (e.outcome word).machine
    random := (e.outcome word).random
    executed := e.executed + 1 }

/-- The ways in which a step can go. -/
inductive Stepped (e : Engine) : Transition Engine Unit → Prop where
  | halted {fault} :
    e.fault = some fault →
    Stepped e ⟨e, .ok (), .none⟩
  | polled {target} :
    e.fault = none →
    e.machine.keyWait = some target →
    Stepped e ⟨e.poll target, .ok (), .none⟩
  | unfetched {fault} :
    e.fault = none →
    e.machine.keyWait = none →
    e.machine.wordAt e.machine.pc = .error fault →
    Stepped e ⟨{ e with fault := some ⟨.machine fault, e.machine.pc, 0⟩ },
      .error (.stopped ⟨.machine fault, e.machine.pc, 0⟩), .none⟩
  | completed {word} :
    e.fault = none →
    e.machine.keyWait = none →
    e.machine.wordAt e.machine.pc = .ok word →
    (Instruction.decode word).obstacle e.policy e.machine = none →
    Stepped e ⟨e.completed word, .ok (),
      e.observe e.machine.pc word (Instruction.decode word)⟩
  | stopped {word cause m} :
    e.fault = none →
    e.machine.keyWait = none →
    e.machine.wordAt e.machine.pc = .ok word →
    (Instruction.decode word).obstacle e.policy e.machine = some cause →
    (Instruction.decode word).Remnant e.machine m →
    Stepped e ⟨{ e with machine := m, fault := some ⟨cause, e.machine.pc, word⟩ },
      .error (.stopped ⟨cause, e.machine.pc, word⟩),
      e.observe e.machine.pc word (Instruction.decode word)⟩

/-- An instruction that nothing stands in the way of is completed. -/
lemma run_of_obstacle_none {e : Engine} {word : UInt16}
    (h : (Instruction.decode word).obstacle e.policy e.machine = none) :
    e.run word = ⟨e.completed word, .ok (),
      e.observe e.machine.pc word (Instruction.decode word)⟩ := by
  -- Execution starts behind the instruction, but no obstacle depends on the program counter.
  rw [← Instruction.obstacle_skip] at h
  have whole := @Instruction.abort_of_obstacle_none _ e.dialect _ e.machine.pc _ e.random h
  rw [run, completed, outcome]
  generalize Instruction.execute .. = o at whole ⊢
  obtain ⟨m, r, abort⟩ := o
  cases whole
  rfl

/-- An instruction that something stands in the way of stops the engine there. -/
lemma run_of_obstacle {e : Engine} {word : UInt16} {cause : FaultCause}
    (h : (Instruction.decode word).obstacle e.policy e.machine = some cause) :
    ∃ m, (Instruction.decode word).Remnant e.machine m ∧
      e.run word = ⟨{ e with machine := m, fault := some ⟨cause, e.machine.pc, word⟩ },
        .error (.stopped ⟨cause, e.machine.pc, word⟩),
        e.observe e.machine.pc word (Instruction.decode word)⟩ := by
  rw [← Instruction.obstacle_skip] at h
  obtain ⟨m, ending, remnant⟩ :=
    @Instruction.execute_of_obstacle _ e.dialect _ e.machine.pc _ e.random _ h
  refine ⟨{ m with pc := e.machine.pc }, remnant.of_skip, ?_⟩
  rw [run, ending]
  rfl

/-- A step without an obstacle completes the instruction. -/
lemma step_of_obstacle_none {e : Engine} {word : UInt16} (running : e.fault = none)
    (awake : e.machine.keyWait = none) (fetched : e.machine.wordAt e.machine.pc = .ok word)
    (h : (Instruction.decode word).obstacle e.policy e.machine = none) :
    e.step = ⟨e.completed word, .ok (), e.observe e.machine.pc word (Instruction.decode word)⟩ := by
  simp only [step, running, awake, advance, fetched, run_of_obstacle_none h]

/-- Every step goes in one of the ways. -/
lemma step_stepped (e : Engine) : e.Stepped e.step := by
  rw [step]
  cases running : e.fault with
  | some fault => exact .halted running
  | none =>
    cases awake : e.machine.keyWait with
    | some target => exact .polled running awake
    | none =>
      simp only [advance]
      cases fetched : e.machine.wordAt e.machine.pc with
      | error fault => exact .unfetched running awake fetched
      | ok word =>
        cases h : (Instruction.decode word).obstacle e.policy e.machine with
        | none =>
          simp only [run_of_obstacle_none h]
          exact .completed running awake fetched h
        | some cause =>
          obtain ⟨m, remnant, ending⟩ := run_of_obstacle h
          simp only [ending]
          exact .stopped running awake fetched h remnant

end Engine

end Chip8
