import Chip8.Proofs.Lockstep
import Chip8.Proofs.Stopping
/-!
# Strict and lenient sessions

The policy decides about nothing but words that are no instruction: a strict engine and the same
engine under the lenient policy go the same way as long as the strict one has not met such a word
(`Engine.inStep_policies`). Where it does, it stops, and the lenient one passes over the word
(`Engine.step_unknown`). `policies_agree` says so of whole sessions.
-/

namespace Chip8

namespace Instruction

variable {ins : Instruction}

/-- The policy matters to words that are no instructions and to nothing else. -/
lemma execute_policy (known : ∀ word, ins ≠ .unknown word) (d : Dialect)
    (policy policy' : UnknownPolicy) (pc : Place) (m : Machine) (r : RandomSource) :
    ins.execute d policy pc m r = ins.execute d policy' pc m r := by
  cases ins with
  | unknown word => exact absurd rfl (known word)
  | _ => rfl

/-- Only a word that is no instruction is refused as such. -/
lemma eq_unknown_of_obstacle {policy : UnknownPolicy} {m : Machine}
    (h : ins.obstacle policy m = some .unknownOpcode) :
    policy = .strict ∧ ∃ word, ins = .unknown word := by
  cases ins with
  | unknown word =>
    cases policy with
    | strict => exact ⟨rfl, word, rfl⟩
    | lenient => cases h
  | ret | call =>
    simp only [obstacle, Option.ite_none_right_eq_some, Option.some.injEq, reduceCtorEq,
      and_false] at h
  | draw | storeDecimal | store | load =>
    obtain ⟨fault, -, other⟩ := Option.map_eq_some_iff.1 h
    cases other
  | _ => cases h

end Instruction

namespace Engine

variable {e e' : Engine} {word : UInt16}

/-- The engine with another policy. -/
def withPolicy (e : Engine) (policy : UnknownPolicy) : Engine := { e with policy := policy }

/-- Whether a word that is no instruction has stopped the engine. -/
def MetUnknown (e : Engine) : Prop := ∃ f, e.fault = some f ∧ f.cause = .unknownOpcode

/-- A strict engine and the same engine under the lenient policy. -/
def Policies (e e' : Engine) : Prop := e.policy = .strict ∧ e' = e.withPolicy .lenient

/-- What is seen of an instruction does not depend on the policy. -/
lemma observe_withPolicy {ins : Instruction} (known : ∀ word, ins ≠ .unknown word)
    (policy : UnknownPolicy) (pc : Place) (opcode : UInt16) :
    (e.withPolicy policy).observe pc opcode ins = e.observe pc opcode ins := by
  cases ins with
  | unknown word => exact absurd rfl (known word)
  | _ => rfl

/-- Running an instruction comes to the same with both policies. -/
lemma run_withPolicy (known : ∀ word', Instruction.decode word ≠ .unknown word')
    (strict : e.policy = .strict) :
    Transition.Alike Policies (e.run word) ((e.withPolicy .lenient).run word) := by
  have shown := observe_withPolicy (e := e) known .lenient e.machine.pc word
  have same := Instruction.execute_policy known e.dialect .lenient e.policy e.machine.pc
    e.machine.skip e.random
  rw [run, run, show (e.withPolicy .lenient).machine = e.machine from rfl, shown,
    show (e.withPolicy .lenient).dialect = e.dialect from rfl,
    show (e.withPolicy .lenient).policy = .lenient from rfl,
    show (e.withPolicy .lenient).random = e.random from rfl, same]
  rcases Instruction.execute e.dialect e.policy e.machine.pc e.machine.skip e.random
    (Instruction.decode word) with ⟨m, r, abort⟩
  cases abort with
  | none => exact .intro ⟨strict, rfl⟩
  | some abort => cases abort <;> exact .intro ⟨strict, rfl⟩

/-- A word that is no instruction stops a strict engine. -/
lemma run_unknown_strict {word' : UInt16} (row : Instruction.decode word = .unknown word')
    (strict : e.policy = .strict) :
    (e.run word).state.MetUnknown := by
  rw [run, row, strict]
  exact ⟨_, rfl, rfl⟩

/-- The lenient engine passes over a word that is no instruction. -/
lemma run_unknown_lenient {word' : UInt16} (row : Instruction.decode word = .unknown word') :
    ∃ seen, (e.withPolicy .lenient).run word =
      ⟨{ e.withPolicy .lenient with machine := e.machine.skip, executed := e.executed + 1 },
        .ok (), seen⟩ := by
  rw [run, row]
  exact ⟨_, rfl⟩

/-- The two policies make no difference until the strict engine has met an unknown word. -/
lemma inStep_policies : InStep Policies MetUnknown where
  machine := by rintro e - ⟨-, rfl⟩; rfl
  fault := by rintro e - ⟨-, rfl⟩; rfl
  executed := by rintro e - ⟨-, rfl⟩; rfl
  change := by rintro e - m f n ⟨strict, rfl⟩; exact ⟨strict, rfl⟩
  hook := by rintro e - on ⟨strict, rfl⟩; exact ⟨strict, rfl⟩
  run := by
    rintro e - word ⟨strict, rfl⟩ on
    exact run_withPolicy (fun word' row => on (run_unknown_strict row strict)) strict
  lasts := {
    step := by
      rintro e ⟨f, stopped, met⟩
      rw [step_of_stopped stopped]
      exact ⟨f, stopped, met⟩
    tick := id
    press := fun _ _ => id
    release := id }
  ended_hook _ := id
  ended_halted := by rintro e ⟨f, stopped, -⟩; exact halted_of_stopped stopped

/-- Where a strict engine stops at an unknown word, it does so at an address, and the lenient engine
passes over that word. -/
lemma step_unknown {pc : Place}
    (met : e.step.result = .error (.stopped ⟨.unknownOpcode, pc, word⟩)) :
    e.fault = none ∧ ∃ (a : Nat) (seen : Observed), pc = .address a ∧ e.machine.pc = pc ∧
      (e.withPolicy .lenient).step =
        ⟨{ e.withPolicy .lenient with
            machine := { e.machine with pc := .address (a + 2 : Nat) }
            executed := e.executed + 1 }, .ok (), seen⟩ := by
  have way := e.step_stepped
  generalize e.step = t at way met
  cases way with
  | halted | polled | completed | unfetched => cases met
  | stopped running awake fetched h =>
    cases met
    obtain ⟨-, word', row⟩ := Instruction.eq_unknown_of_obstacle h
    obtain ⟨a, at_, inside, -⟩ := Machine.wordAt_pc_eq_ok_iff.1 fetched
    obtain ⟨seen, passed⟩ := run_unknown_lenient (e := e) row
    have next : e.machine.pc.next = .address (a + 2 : Nat) :=
      (congrArg Place.next at_).trans (Place.next_address (by omega))
    refine ⟨running, a, seen, at_, rfl, ?_⟩
    rw [step, show (e.withPolicy .lenient).fault = none from running]
    simp only [advance, show (e.withPolicy .lenient).machine = e.machine from rfl, awake, fetched]
    rw [passed, Machine.skip, next, awake]

end Engine

namespace Session

/-- Fresh engines differ in their policy as the settings do. -/
lemma policies_freshEngine (settings : Settings) (tracing : Tracing) (memory : Memory)
    (random : RandomSource) :
    Engine.Policies
      (freshEngine { settings with unknownOpcodes := .strict } tracing memory random)
      (freshEngine { settings with unknownOpcodes := .lenient } tracing memory random) :=
  ⟨rfl, rfl⟩

/-- Sessions into which the same program was loaded differ in their policy only. -/
lemma policies_load (settings : Settings) (tracing : Tracing) (random : RandomSource)
    (bytes : List UInt8) :
    Engine.Policies
      ((start { settings with unknownOpcodes := .strict } tracing random).act
        (.load bytes)).state.engine
      ((start { settings with unknownOpcodes := .lenient } tracing random).act
        (.load bytes)).state.engine := by
  cases fits : Rom.ofBytes bytes with
  | error =>
    rw [act_load_refused fits, act_load_refused fits]
    exact policies_freshEngine settings tracing .powerOn random
  | ok rom =>
    rw [act_load fits, act_load fits]
    exact policies_freshEngine settings tracing (Memory.powerOn.load rom) random

/-- The budget does not depend on the policy. -/
lemma budget_after (settings : Settings) (tracing : Tracing) (random : RandomSource)
    (policy policy' : UnknownPolicy) (acts : List Action) :
    ((start { settings with unknownOpcodes := policy' } tracing random).after
        acts).settings.instructionsPerFrame =
      ((start { settings with unknownOpcodes := policy } tracing random).after
        acts).settings.instructionsPerFrame := by
  rw [(configuration_after _ acts).1, (configuration_after _ acts).1]
  rfl

/-- Sessions with the two policies stay in step until the strict one meets a word that is no
instruction. -/
lemma policies_after (settings : Settings) (tracing : Tracing) (random : RandomSource)
    (bytes : List UInt8) {acts : List Action} (keep : ∀ a ∈ acts, a.KeepsPolicy)
    (on : ¬ ((start { settings with unknownOpcodes := .strict } tracing random).after
      (.load bytes :: acts)).engine.MetUnknown) :
    Engine.Policies
      ((start { settings with unknownOpcodes := .strict } tracing random).after
        (.load bytes :: acts)).engine
      ((start { settings with unknownOpcodes := .lenient } tracing random).after
        (.load bytes :: acts)).engine := by
  have last := Engine.inStep_policies.after keep (policies_load settings tracing random bytes)
    (budget_after settings tracing random .strict .lenient [.load bytes]) on
  exact last

/-- A program under both policies, over any actions that neither load another one nor set the
policy. As long as the strict session has not met a word that is no instruction, both have the same
machine, count of instructions, random bytes and fault, and every action has the same result in
both. The step that makes the strict session stop at such a word leaves the lenient one as it was,
but for one more instruction completed and the program counter behind the word. -/
theorem policies_agree (settings : Settings) (tracing : Tracing) (random : RandomSource)
    (bytes : List UInt8) {acts : List Action} (keep : ∀ a ∈ acts, a.KeepsPolicy) :
    let strict := (start { settings with unknownOpcodes := .strict } tracing random).after
      (.load bytes :: acts)
    let lenient := (start { settings with unknownOpcodes := .lenient } tracing random).after
      (.load bytes :: acts)
    (¬ strict.engine.MetUnknown → lenient.engine = strict.engine.withPolicy .lenient) ∧
      (∀ a : Action, a.KeepsPolicy → ¬ (strict.act a).state.engine.MetUnknown →
        (lenient.act a).result = (strict.act a).result) ∧
      ∀ pc word, strict.step.result = .error (.stopped ⟨.unknownOpcode, pc, word⟩) →
        ∃ a : Nat, pc = .address a ∧ strict.machine.pc = pc ∧
          lenient.engine = strict.engine.withPolicy .lenient ∧ lenient.step.result = .ok () ∧
          lenient.step.state.engine = { lenient.engine with
            machine := { lenient.machine with pc := .address (a + 2 : Nat) }
            executed := lenient.engine.executed + 1 } := by
  intro strict lenient
  have related (on : ¬ strict.engine.MetUnknown) :
      Engine.Policies strict.engine lenient.engine :=
    policies_after settings tracing random bytes keep on
  have budget : lenient.settings.instructionsPerFrame = strict.settings.instructionsPerFrame :=
    budget_after settings tracing random .strict .lenient (.load bytes :: acts)
  refine ⟨fun on => (related on).2, ?_, ?_⟩
  · intro a keeps on
    have before : ¬ strict.engine.MetUnknown :=
      fun met => on (Engine.inStep_policies.ended_act keeps met)
    have alike := Engine.inStep_policies.act keeps (related before) budget on
    generalize strict.act a = t at alike ⊢
    generalize lenient.act a = t' at alike ⊢
    cases alike
    rfl
  · intro pc word met
    obtain ⟨running, a, seen, at_, here, passed⟩ := Engine.step_unknown met
    have on : ¬ strict.engine.MetUnknown := by
      rintro ⟨f, stopped, -⟩
      rw [running] at stopped
      cases stopped
    have same := (related on).2
    rw [← same] at passed
    refine ⟨a, at_, here, same, congrArg Transition.result passed, ?_⟩
    refine (congrArg Transition.state passed).trans ?_
    rw [Session.machine, same]
    rfl

/-- A program that is no instruction, met after a key went down and the timers ticked. -/
theorem policies_agree_unknown :
    ∃ strict lenient : Session,
      strict.step.result = .error (.stopped ⟨.unknownOpcode, .address 0x200, 0x5121⟩) ∧
      lenient.engine = strict.engine.withPolicy .lenient ∧
      lenient.step.result = .ok () ∧
      lenient.step.state.engine = { lenient.engine with
        machine := { lenient.machine with pc := .address 0x202 }
        executed := lenient.engine.executed + 1 } := by
  have keep : ∀ a ∈ [Action.setKey (.finite 3) true, .tick], a.KeepsPolicy := by
    simp only [List.forall_mem_cons, Action.KeepsPolicy, List.not_mem_nil, false_imp_iff,
      implies_true, and_self]
  obtain ⟨s, begins, policy, loaded⟩ : ∃ s : Session, s.Begins ⟨[0x51, 0x21], by decide⟩ ∧
      s.engine.policy = .strict ∧
      ((start { unknownOpcodes := .strict } .off (.cycle [])).act (.load [0x51, 0x21])).state = s :=
    ⟨_, begins_boot (.start _ _ _) _, rfl, congrArg Transition.state (act_load rfl)⟩
  let t := (s.withEngine (s.engine.withKeypad (s.machine.keypad.press 3 true))).tick
  have strict : (start { unknownOpcodes := .strict } .off (.cycle [])).after
      [.load [0x51, 0x21], .setKey (.finite 3) true, .tick] = t := by
    have known : Digit.ofNumber? (.finite 3) = some 3 := rfl
    rw [after, loaded, after, act_setKey known]
    rfl
  have running : t.engine.fault = none := begins.running
  have awake : t.engine.machine.keyWait = none := begins.awake
  have fetches : t.engine.machine.view.Fetches 0x200 0x5121 := begins.fetches ⟨by decide, rfl⟩
  have refused : (Instruction.decode 0x5121).obstacle t.engine.policy t.engine.machine =
      some .unknownOpcode := by
    rw [show t.engine.policy = .strict from policy]
    rfl
  have met : t.step.result =
      .error (.stopped ⟨.unknownOpcode, t.engine.machine.pc, 0x5121⟩) :=
    (Engine.step_eq_error_iff running awake).2
      (.inr ⟨Machine.wordAt_pc_eq_ok_iff.2 ⟨_, fetches⟩, refused⟩)
  rw [show t.engine.machine.pc = .address 0x200 from fetches.1] at met
  obtain ⟨-, -, stops⟩ := policies_agree {} .off (.cycle []) [0x51, 0x21] keep
  obtain ⟨a, at_, -, same, done, passed⟩ := stops (.address 0x200) 0x5121 (by rw [strict, met])
  obtain rfl : a = 0x200 := by
    simp only [Place.address.injEq] at at_
    omega
  exact ⟨_, _, (by rw [strict, met]), same, done, passed⟩

end Session

end Chip8
