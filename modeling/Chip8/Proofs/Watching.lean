import Chip8.Proofs.Frames
/-!
# Watching a session

Tracing prints lines and a hook is called, but neither has a say in what happens. An engine that
nobody watches does what the watched one does, with the same result, and lets nothing be seen
(`Engine.step_unwatched`, `Session.act_unwatched`). So the course of a session, which is how things
stand after each of its actions, is that of the session that nobody watches (`Session.course_eq`),
whether or not its frames are taken apart (`Session.unrolled_unwatched`). `course_of_watched`
compares two sessions that are watched in different ways.
-/

namespace Chip8

/-- The transition between what a function makes of the states, with the same result and nothing to
be seen. -/
def Transition.unseen {σ α : Type} (t : Transition σ α) (f : σ → σ) : Transition σ α :=
  ⟨f t.state, t.result, .none⟩

/-- Whether an action sets the hook, and so decides about nothing but who watches. -/
def Action.setsHook : Action → Bool
  | .setHook _ => true
  | _ => false

namespace Engine

/-- The engine with nobody watching it: nothing is printed and no hook is called. -/
def unwatched (e : Engine) : Engine := { e with tracing := .off, hooked := false }

/-- Watching does not change the machine. -/
@[simp] lemma machine_unwatched (e : Engine) : e.unwatched.machine = e.machine := rfl

/-- Watching does not change the dialect. -/
@[simp] lemma dialect_unwatched (e : Engine) : e.unwatched.dialect = e.dialect := rfl

/-- Watching does not change the policy. -/
@[simp] lemma policy_unwatched (e : Engine) : e.unwatched.policy = e.policy := rfl

/-- Watching does not change the source of random bytes. -/
@[simp] lemma random_unwatched (e : Engine) : e.unwatched.random = e.random := rfl

/-- Watching does not change what the engine was stopped by. -/
@[simp] lemma fault_unwatched (e : Engine) : e.unwatched.fault = e.fault := rfl

/-- Watching does not change whether the engine has stopped. -/
@[simp] lemma halted_unwatched (e : Engine) : e.unwatched.halted = e.halted := rfl

/-- Nothing is seen of an engine that nobody watches. -/
lemma observe_unwatched (e : Engine) (pc : Place) (opcode : UInt16) (ins : Instruction) :
    e.unwatched.observe pc opcode ins = .none := by
  cases ins with
  | unknown word =>
    cases policy : e.policy with
    | strict | lenient => simp only [observe, unwatched, policy]; rfl
  | _ => rfl

/-- Running a word comes to the same without anybody watching. -/
lemma run_unwatched (e : Engine) (word : UInt16) :
    e.unwatched.run word = (e.run word).unseen unwatched := by
  have dark := observe_unwatched e e.machine.pc word (Instruction.decode word)
  rw [run, machine_unwatched, dark, run]
  simp only [dialect_unwatched, policy_unwatched, random_unwatched]
  rcases Instruction.execute e.dialect e.policy e.machine.pc e.machine.skip e.random
    (Instruction.decode word) with ⟨m, r, abort⟩
  cases abort with
  | none => rfl
  | some abort => cases abort <;> rfl

/-- A look for a key comes to the same without anybody watching. -/
lemma poll_unwatched (e : Engine) (target : Register) :
    e.unwatched.poll target = (e.poll target).unwatched := by
  rw [poll, poll, machine_unwatched]
  split <;> rfl

/-- A step goes the same way whether or not it is watched. -/
lemma step_unwatched (e : Engine) : e.unwatched.step = e.step.unseen unwatched := by
  rw [step, step, fault_unwatched, machine_unwatched]
  cases e.fault with
  | some f => rfl
  | none =>
    cases e.machine.keyWait with
    | some target =>
      simp only [poll_unwatched]
      rfl
    | none =>
      simp only [advance, machine_unwatched]
      cases e.machine.wordAt e.machine.pc with
      | error f => rfl
      | ok word => exact run_unwatched e word

/-- The steps of a frame come to the same without anybody watching. -/
lemma stepsFrom_unwatched (e : Engine) (seen : Observed) (n : Nat) :
    e.unwatched.stepsFrom .none n = (e.stepsFrom seen n).unseen unwatched := by
  induction n generalizing e seen with
  | zero => rfl
  | succ n ih =>
    rw [stepsFrom, stepsFrom, halted_unwatched, step_unwatched]
    cases e.halted with
    | true => rfl
    | false =>
      rcases e.step with ⟨e', result, now⟩
      cases result with
      | error => rfl
      | ok => exact ih e' (seen ++ now)

/-- Any number of steps come to the same without anybody watching. -/
lemma steps_unwatched (e : Engine) (n : Nat) :
    e.unwatched.steps n = (e.steps n).unseen unwatched :=
  stepsFrom_unwatched e .none n

/-- An engine makes as many steps below a bound whether or not it is watched. -/
lemma endsAfter_unwatched (e : Engine) (bound : Number) (n : Nat) :
    e.unwatched.EndsAfter bound n ↔ e.EndsAfter bound n := by
  have halted : (e.unwatched.steps n).state.halted = (e.steps n).state.halted := by
    rw [steps_unwatched]
    rfl
  exact ⟨fun ends => ⟨ends.allows, halted ▸ ends.stops⟩,
    fun ends => ⟨ends.allows, halted.symm ▸ ends.stops⟩⟩

/-- The steps below a bound come to the same without anybody watching. -/
lemma stepsBelow_unwatched (e : Engine) (bound : Number) :
    e.unwatched.stepsBelow bound = (e.stepsBelow bound).map (·.unseen unwatched) := by
  ext t
  simp only [stepsBelow_eq_some_iff, endsAfter_unwatched, steps_unwatched, Option.map_eq_some_iff]
  constructor
  · rintro ⟨n, ends, rfl⟩
    exact ⟨_, ⟨n, ends, rfl⟩, rfl⟩
  · rintro ⟨_, ⟨n, ends, rfl⟩, rfl⟩
    exact ⟨n, ends, rfl⟩

end Engine

/-- How things stand after an action, and how it ended. -/
structure Moment where
  machine : Machine
  executed : Nat
  fault : Option Fault
  random : RandomSource
  result : Except Error (Option FrameReport)

/-- How things stand after a transition of a session. -/
def Moment.after (t : Transition Session (Option FrameReport)) : Moment :=
  ⟨t.state.machine, t.state.engine.executed, t.state.engine.fault, t.state.engine.random, t.result⟩

namespace Session

variable {s : Session} {a : Action}

/-- The session with nobody watching it. -/
def unwatched (s : Session) : Session :=
  { s with tracing := .off, engine := s.engine.unwatched }

/-- The engine of a session that nobody watches. -/
@[simp] lemma engine_unwatched (s : Session) : s.unwatched.engine = s.engine.unwatched := rfl

/-- Watching does not change the settings. -/
@[simp] lemma settings_unwatched (s : Session) : s.unwatched.settings = s.settings := rfl

/-- Watching does not change the program. -/
@[simp] lemma rom_unwatched (s : Session) : s.unwatched.rom = s.rom := rfl

/-- How things stand after each of some actions, those left out that set the hook. -/
def course (s : Session) : List Action → List Moment
  | [] => []
  | a :: rest =>
    if a.setsHook then (s.act a).state.course rest
    else .after (s.act a) :: (s.act a).state.course rest

/-- A program is booted in the same way without anybody watching. -/
lemma boot_unwatched (s : Session) (rom : Rom) : s.unwatched.boot rom = (s.boot rom).unwatched := by
  rw [boot, boot]
  generalize Memory.powerOn.load rom = memory
  rfl

/-- A frame comes to the same without anybody watching. -/
lemma frame_unwatched (s : Session) :
    s.unwatched.frame = s.frame.map (·.unseen unwatched) := by
  rw [frame, frame, engine_unwatched, settings_unwatched, Engine.stepsBelow_unwatched,
    Option.map_map, Option.map_map]
  congr 1
  funext t
  rcases t with ⟨e, _ | _, seen⟩ <;> rfl

/-- Whatever is done to a session, it makes no difference whether the session is watched. -/
lemma act_unwatched (s : Session) (other : a.setsHook = false) :
    s.unwatched.act a = (s.act a).unseen unwatched := by
  cases a with
  | load bytes =>
    cases fits : Rom.ofBytes bytes with
    | error =>
      rw [act_load_refused fits, act_load_refused fits]
      rfl
    | ok rom =>
      rw [act_load fits, act_load fits, boot_unwatched]
      rfl
  | reset =>
    simp only [act, reset, quietly, boot_unwatched, rom_unwatched]
    rfl
  | step =>
    simp only [act, step, engine_unwatched, Engine.step_unwatched]
    rfl
  | frame =>
    simp only [act, frame_unwatched]
    cases s.frame <;> rfl
  | setKey index down =>
    cases known : Digit.ofNumber? index with
    | none =>
      rw [act_setKey_unknown known, act_setKey_unknown known]
      rfl
    | some key =>
      rw [act_setKey known, act_setKey known]
      rfl
  | setHook => cases other
  | tick | releaseKeys | setPolicy => rfl

/-- Setting the hook changes nothing but who watches. -/
lemma unwatched_act_of_setsHook (s : Session) (hook : a.setsHook = true) :
    (s.act a).state.unwatched = s.unwatched := by
  cases a with
  | setHook => rfl
  | _ => cases hook

/-- The course of a session is that of the session that nobody watches. -/
lemma course_eq (s : Session) (acts : List Action) :
    s.course acts = s.unwatched.course (acts.filter (!·.setsHook)) := by
  induction acts generalizing s with
  | nil => rfl
  | cons a rest ih =>
    rw [course]
    cases hook : a.setsHook with
    | true =>
      rw [List.filter_cons_of_neg (by rw [hook]; exact Bool.false_ne_true), if_pos rfl, ih,
        unwatched_act_of_setsHook s hook]
    | false =>
      rw [List.filter_cons_of_pos (by rw [hook]; rfl), if_neg Bool.false_ne_true, ih, course, hook,
        if_neg Bool.false_ne_true, act_unwatched s hook]
      rfl

/-- A frame has as many steps without anybody watching. -/
lemma frameSteps_unwatched (s : Session) : s.unwatched.frameSteps = s.frameSteps := by
  simp only [frameSteps, engine_unwatched, settings_unwatched, Engine.endsAfter_unwatched]

/-- Watching has no say in what a host could ask for instead of an action. -/
lemma parts_unwatched (s : Session) (a : Action) : s.unwatched.parts a = s.parts a := by
  cases a with
  | frame =>
    rw [parts, parts, frame_unwatched, frameSteps_unwatched]
    cases s.frame <;> rfl
  | _ => rfl

/-- The parts of an action that sets no hook set none. -/
lemma filter_parts (other : a.setsHook = false) : (s.parts a).filter (!·.setsHook) = s.parts a := by
  refine List.filter_eq_self.2 ?_
  intro b member
  obtain rfl | rfl | ⟨rfl, -⟩ := mem_parts member
  · rfl
  · rfl
  · rw [other]
    rfl

/-- Taking frames apart and leaving out what sets hooks can be done in either order. -/
lemma unrolled_unwatched (s : Session) (acts : List Action) :
    (s.unrolled acts).filter (!·.setsHook) =
      s.unwatched.unrolled (acts.filter (!·.setsHook)) := by
  induction acts generalizing s with
  | nil => rfl
  | cons a rest ih =>
    rw [unrolled, List.filter_append, ih]
    cases hook : a.setsHook with
    | true =>
      have alone : (s.parts a).filter (!·.setsHook) = [] := by
        cases a with
        | setHook => rfl
        | _ => cases hook
      rw [List.filter_cons_of_neg (by rw [hook]; exact Bool.false_ne_true), alone,
        unwatched_act_of_setsHook s hook, List.nil_append]
    | false =>
      rw [List.filter_cons_of_pos (by rw [hook]; rfl), filter_parts hook, unrolled,
        parts_unwatched, act_unwatched s hook]
      rfl

/-- Two new sessions that differ at most in how they are traced, and actions on them that differ at
most in where the hook is set. After each of the actions on the one, machine, count of instructions,
fault, random bytes and result are those after the action on the other, and so they are after each
step within a frame. -/
theorem course_of_watched (settings : Settings) (tracing tracing' : Tracing)
    (random : RandomSource) {acts acts' : List Action}
    (same : acts.filter (!·.setsHook) = acts'.filter (!·.setsHook)) :
    let s := start settings tracing random
    let s' := start settings tracing' random
    s.course acts = s'.course acts' ∧
      s.course (s.unrolled acts) = s'.course (s'.unrolled acts') := by
  intro s s'
  have dark : s.unwatched = s'.unwatched := rfl
  refine ⟨?_, ?_⟩
  · rw [course_eq, dark, same, ← course_eq]
  · rw [course_eq, dark, unrolled_unwatched, dark, same, ← unrolled_unwatched, ← course_eq]

/-- A session that shows two lines and calls the hook when it passes over a word that is no
instruction, and one that lets nothing be seen. -/
theorem course_of_watched_unknown :
    ∃ bright dark : Session,
      ((bright.after [.load [0x51, 0x21], .setHook true]).act .step).observed.lines.size = 2 ∧
      ((bright.after [.load [0x51, 0x21], .setHook true]).act .step).observed.calls.size = 1 ∧
      ((dark.after [.load [0x51, 0x21]]).act .step).observed = .none ∧
      bright.course [.load [0x51, 0x21], .setHook true, .step] =
        dark.course [.load [0x51, 0x21], .step] := by
  let settings : Settings := { unknownOpcodes := .lenient }
  let tracing : Tracing := ⟨true, 0, 9⟩
  obtain ⟨s, begins, policy, traced, first, loaded⟩ : ∃ s : Session,
      s.Begins ⟨[0x51, 0x21], by decide⟩ ∧ s.engine.policy = .lenient ∧
      s.engine.tracing = tracing ∧ s.engine.executed = 0 ∧
      ((start settings tracing (.cycle [])).act (.load [0x51, 0x21])).state = s :=
    ⟨_, begins_boot (.start _ _ _) _, rfl, rfl, rfl, congrArg Transition.state (act_load rfl)⟩
  have fetches : s.machine.view.Fetches 0x200 0x5121 := begins.fetches ⟨by decide, rfl⟩
  let e : Engine := { s.engine with hooked := true }
  have clear : (Instruction.decode 0x5121).obstacle e.policy e.machine = none := by
    rw [show e.policy = .lenient from policy]
    rfl
  have step : e.step = _ := Engine.step_of_obstacle_none begins.running begins.awake
    (Machine.wordAt_pc_eq_ok_iff.2 ⟨_, fetches⟩) clear
  have row : Instruction.decode 0x5121 = .unknown 0x5121 := rfl
  have seen : (((start settings tracing (.cycle [])).after
      [.load [0x51, 0x21], .setHook true]).act .step).observed = e.step.observed := by
    rw [after, loaded]
    rfl
  obtain ⟨whole, -⟩ := @course_of_watched settings tracing .off (.cycle [])
    [.load [0x51, 0x21], .setHook true, .step] [.load [0x51, 0x21], .step] rfl
  refine ⟨start settings tracing (.cycle []), start settings .off (.cycle []), ?_, ?_, ?_,
    whole⟩
  · rw [seen, step, row]
    simp only [Engine.observe, e, policy, traced, first]
    rfl
  · rw [seen, step]
    rfl
  · have quiet := act_unwatched (a := .step)
      ((start settings .off (.cycle [])).after [.load [0x51, 0x21]]) rfl
    have dark : ((start settings .off (.cycle [])).after [.load [0x51, 0x21]]).unwatched =
        (start settings .off (.cycle [])).after [.load [0x51, 0x21]] := by
      have fits : Rom.ofBytes [0x51, 0x21] = .ok ⟨[0x51, 0x21], by decide⟩ := rfl
      rw [after, act_load fits]
      exact (boot_unwatched _ _).symm
    rw [dark] at quiet
    rw [quiet]
    rfl

end Session

end Chip8
