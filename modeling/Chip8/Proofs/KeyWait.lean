import Chip8.Proofs.Latch
import Chip8.Proofs.Waiting
/-!
# The protocol of a wait

What happens between the instruction that waits for a key and the step that gets it. `presses` reads
off a sequence of actions which keys go down in its course. While none did, the engine sleeps; the
first that does is caught and kept whatever follows, and the next step takes it. `waitKey_protocol`
says so of every sequence of actions.
-/

namespace Chip8

namespace Action

/-- The keys that are down after an action, given those that were down before. -/
def keys (down : Key → Bool) : Action → Key → Bool
  | .setKey index pressed =>
    match Digit.ofNumber? index with
    | some key => fun k => if k = key then pressed else down k
    | none => down
  | .releaseKeys => fun _ => false
  | _ => down

/-- The key that an action takes from up to down, if any. -/
def pressed? (down : Key → Bool) : Action → Option Key
  | .setKey index pressed =>
    match Digit.ofNumber? index with
    | some key => if pressed && !down key then some key else none
    | none => none
  | _ => none

/-- The keys that go from up to down in the course of some actions. -/
def presses (down : Key → Bool) : List Action → List Key
  | [] => []
  | act :: rest => (act.pressed? down).toList ++ presses (act.keys down) rest

/-- Whether an action makes no step, frames having a bound on the number of theirs. -/
def IsStepless (bound : Number) : Action → Prop
  | .step => False
  | .frame => bound.isAbove 0 = false
  | _ => True

/-- Whether an action releases a key. -/
def Releases (key : Key) : Action → Prop
  | .setKey index pressed => Digit.ofNumber? index = some key ∧ pressed = false
  | .releaseKeys => True
  | _ => False

/-- The keys that go down in actions one after the other. -/
lemma presses_append (down : Key → Bool) (acts acts' : List Action) :
    presses down (acts ++ acts') =
      presses down acts ++ presses (acts.foldl keys down) acts' := by
  induction acts generalizing down with
  | nil => rfl
  | cons act rest ih =>
    simp only [List.cons_append, presses, List.foldl_cons, ih, List.append_assoc]

/-- A key that is held stays held as long as it is not released. -/
lemma keys_of_held {down : Key → Bool} {key : Key} {act : Action} (held : down key = true)
    (kept : ¬ act.Releases key) : act.keys down key = true := by
  cases act with
  | setKey index pressed =>
    cases known : Digit.ofNumber? index with
    | none => simp only [keys, known, held]
    | some key' =>
      simp only [keys, known]
      by_cases same : key = key'
      · subst same
        rw [if_pos rfl, ← Bool.not_eq_false]
        exact fun up => kept ⟨known, up⟩
      · rwa [if_neg same]
  | releaseKeys => exact absurd trivial kept
  | _ => exact held

/-- A key that is held does not go down. -/
lemma pressed?_ne_of_held {down : Key → Bool} {key : Key} {act : Action} (held : down key = true) :
    act.pressed? down ≠ some key := by
  intro now
  cases act with
  | setKey index pressed =>
    cases known : Digit.ofNumber? index with
    | none => simp only [pressed?, known, reduceCtorEq] at now
    | some key' =>
      simp only [pressed?, known, Option.ite_none_right_eq_some, Bool.and_eq_true,
        Bool.not_eq_true', Option.some.injEq] at now
      obtain ⟨⟨-, up⟩, rfl⟩ := now
      rw [held] at up
      cases up
  | _ => cases now

/-- A key that is held all the time does not go down. -/
lemma not_mem_presses_of_held {down : Key → Bool} {key : Key} {acts : List Action}
    (held : down key = true) (kept : ∀ act ∈ acts, ¬ act.Releases key) :
    key ∉ presses down acts := by
  induction acts generalizing down with
  | nil => exact List.not_mem_nil
  | cons act rest ih =>
    obtain ⟨first, others⟩ := List.forall_mem_cons.1 kept
    rw [presses, List.mem_append, Option.mem_toList]
    rintro (now | later)
    · exact pressed?_ne_of_held held now
    · exact ih (keys_of_held held first) others later

end Action

namespace Engine

variable {e : Engine} {x : Register} {a : Nat} {latch : Option Key}

/-- An engine that waits at an address for a key that a register is to receive, and what its keypad
has caught. -/
structure Asleep (e : Engine) (x : Register) (a : Nat) (latch : Option Key) : Prop where
  running : e.fault = none
  waits : e.machine.keyWait = some x
  armed : e.machine.keypad.waiting = true
  caught : e.machine.keypad.latched = latch
  at_ : e.machine.pc = .address a

/-- The engine after a wait at an address got its key. -/
def answered (e : Engine) (x : Register) (a : Nat) (key : Key) : Engine :=
  { e with
    machine := { e.machine.set x (UInt8.ofNat key.val) with
      pc := .address (a + 2 : Nat)
      keyWait := none
      keypad := { e.machine.keypad with waiting := false, latched := none } }
    executed := e.executed + 1 }

/-- The instruction that waits arms the keypad and stays where it is. -/
lemma step_waitKey {word : UInt16} (running : e.fault = none) (awake : e.machine.keyWait = none)
    (fetches : e.machine.view.Fetches a word) (row : (Instruction.waitKey x).Describes word) :
    ∃ seen, e.step = ⟨{ e with
      machine := e.machine.beginKeyWait x
      executed := e.executed + 1 }, .ok (), seen⟩ := by
  have fetched := Machine.wordAt_pc_eq_ok_iff.2 ⟨a, fetches⟩
  have clear : (Instruction.decode word).obstacle e.policy e.machine = none := by
    rw [row.decode_eq]
    rfl
  rw [step_of_obstacle_none running awake fetched clear, completed, outcome, row.decode_eq]
  exact ⟨_, rfl⟩

/-- A step does nothing as long as no key is caught. -/
lemma Asleep.step_none (h : e.Asleep x a none) : e.step = ⟨e, .ok (), .none⟩ := by
  rw [step, h.running]
  simp only [h.waits]
  rw [poll_of_latched_none h.waits h.caught]

/-- Any number of steps do nothing as long as no key is caught. -/
lemma Asleep.stepsFrom_none (h : e.Asleep x a none) (n : Nat) :
    e.stepsFrom .none n = ⟨e, .ok (), .none⟩ := by
  induction n with
  | zero => rfl
  | succ n ih =>
    rw [stepsFrom, halted_of_running h.running]
    simp only [Bool.false_eq_true, if_false, h.step_none]
    exact ih

/-- A tick does not end the wait. -/
lemma Asleep.ticked (h : e.Asleep x a latch) : e.ticked.Asleep x a latch :=
  ⟨h.running, h.waits, h.armed, h.caught, h.at_⟩

/-- Releasing all keys does not end the wait. -/
lemma Asleep.released (h : e.Asleep x a latch) :
    (e.withKeypad e.machine.keypad.releaseAll).Asleep x a latch :=
  ⟨h.running, h.waits, h.armed, h.caught, h.at_⟩

/-- A wait whose key has been caught goes on with it. -/
lemma Asleep.or_none (h : e.Asleep x a latch) : e.Asleep x a (latch.or none) := by
  rwa [Option.or_none]

/-- A step answers with the key that was caught, and goes on behind the instruction. -/
lemma Asleep.step_some {key : Key} (h : e.Asleep x a (some key)) (inside : a + 2 < 65536) :
    e.step = ⟨e.answered x a key, .ok (), .none⟩ := by
  rw [step, h.running]
  simp only [h.waits]
  rw [poll_of_latched_some h.waits h.armed h.caught, answered, ← Place.next_address inside, ← h.at_]
  rfl

/-- The first of some steps answers, and the others go on from there. -/
lemma Asleep.steps_some {key : Key} (h : e.Asleep x a (some key)) (inside : a + 2 < 65536)
    (n : Nat) : e.steps (n + 1) = (e.answered x a key).steps n := by
  rw [steps, stepsFrom, halted_of_running h.running]
  simp only [Bool.false_eq_true, if_false, h.step_some inside]
  rfl

end Engine

namespace Session

open Engine

variable {s : Session} {x : Register} {a : Nat} {latch : Option Key}

/-- A frame without steps is a tick. -/
lemma frame_of_stepless (running : s.engine.fault = none)
    (never : s.settings.instructionsPerFrame.isAbove 0 = false) :
    s.frame = some ⟨s.tick, .ok ⟨0, false⟩, .none⟩ := by
  have none_ : s.engine.EndsAfter s.settings.instructionsPerFrame 0 :=
    ⟨Number.allows_zero, .inl never⟩
  rw [frame_of_ok (stepsBelow_eq_some_iff.2 ⟨0, none_, rfl⟩), Nat.sub_self,
    halted_of_running running]
  rfl

/-- A frame of a session that waits and has caught nothing is a tick, if it has an end. -/
lemma frame_of_asleep (asleep : s.engine.Asleep x a none) :
    s.frame = if s.settings.instructionsPerFrame.isReached then
      some ⟨s.tick, .ok ⟨0, false⟩, .none⟩ else none := by
  cases reached : s.settings.instructionsPerFrame.isReached with
  | false =>
    refine frame_eq_none reached fun n => ?_
    rw [Engine.steps, asleep.stepsFrom_none]
    exact halted_of_running asleep.running
  | true =>
    obtain ⟨t, done⟩ := exists_frame reached
    rw [done, if_pos rfl]
    cases frame_framed done with
    | ticked _ steps =>
      rw [Engine.steps, asleep.stepsFrom_none] at steps
      cases steps
      rw [Nat.sub_self, halted_of_running asleep.running]
      rfl
    | failed _ steps =>
      rw [Engine.steps, asleep.stepsFrom_none] at steps
      cases steps

/-- What an action does to a session that waits: it presses and releases keys, and the first that is
pressed is caught. -/
lemma act_of_asleep (asleep : s.engine.Asleep x a latch) {act : Action} (ongoing : act.IsOngoing)
    (still : latch = none ∨ act.IsStepless s.settings.instructionsPerFrame) :
    (s.act act).state.settings = s.settings ∧
      (s.act act).state.machine.keypad.holds = act.keys s.machine.keypad.holds ∧
      (s.act act).state.engine.Asleep x a (latch.or (act.pressed? s.machine.keypad.holds)) := by
  cases act with
  | step =>
    obtain rfl | never := still
    · have same : s.act .step = ⟨s, .ok none, .none⟩ := by
        simp only [act, Session.step, asleep.step_none]
        rfl
      rw [same]
      exact ⟨rfl, rfl, asleep⟩
    · exact never.elim
  -- The steps of a frame find nothing caught, or there are none.
  | frame =>
    rcases done : s.frame with _ | t
    · rw [act_frame_of_endless done]
      exact ⟨rfl, rfl, asleep.or_none⟩
    · have ticked : t = ⟨s.tick, .ok ⟨0, false⟩, .none⟩ := by
        obtain rfl | never := still
        · rw [frame_of_asleep asleep] at done
          split at done
          case isTrue => exact (Option.some.inj done).symm
          case isFalse => cases done
        · rw [frame_of_stepless asleep.running never] at done
          exact (Option.some.inj done).symm
      rw [ticked] at done
      rw [act_frame done]
      exact ⟨rfl, rfl, asleep.ticked.or_none⟩
  | tick => exact ⟨rfl, rfl, asleep.ticked.or_none⟩
  | releaseKeys => exact ⟨rfl, funext (Keypad.holds_releaseAll _), asleep.released.or_none⟩
  | setKey index down =>
    obtain ⟨key, known⟩ := ongoing
    rw [act_setKey known]
    refine ⟨rfl, ?_, ?_⟩
    · simp only [Action.keys, known]
      exact funext (Keypad.holds_press _ _ · _)
    · have caught := Keypad.latched_press_of_armed asleep.armed key down
      rw [asleep.caught] at caught
      simp only [Action.pressed?, known]
      exact ⟨asleep.running, asleep.waits, asleep.armed, caught, asleep.at_⟩
  | _ => exact ongoing.elim

/-- While no key goes down, the session sleeps on. -/
lemma after_of_asleep (asleep : s.engine.Asleep x a none) {acts : List Action}
    (ongoing : ∀ act ∈ acts, act.IsOngoing)
    (quiet : Action.presses s.machine.keypad.holds acts = []) :
    (s.after acts).settings = s.settings ∧
      (s.after acts).machine.keypad.holds = acts.foldl Action.keys s.machine.keypad.holds ∧
      (s.after acts).engine.Asleep x a none := by
  induction acts generalizing s with
  | nil => exact ⟨rfl, rfl, asleep⟩
  | cons act rest ih =>
    obtain ⟨first, others⟩ := List.forall_mem_cons.1 ongoing
    obtain ⟨settings, holds, next⟩ := act_of_asleep asleep first (.inl rfl)
    rw [Action.presses, List.append_eq_nil_iff, Option.toList_eq_nil_iff] at quiet
    rw [quiet.1] at next
    rw [← holds] at quiet
    obtain ⟨settings', holds', last⟩ := ih next others quiet.2
    refine ⟨settings'.trans settings, ?_, last⟩
    rw [List.foldl_cons, ← holds]
    exact holds'

/-- The first key that goes down is kept until a step is made. -/
lemma after_of_still (asleep : s.engine.Asleep x a latch) {acts : List Action}
    (ongoing : ∀ act ∈ acts, act.IsOngoing)
    (still : ∀ act ∈ acts, act.IsStepless s.settings.instructionsPerFrame) :
    (s.after acts).engine.Asleep x a
      (latch.or (Action.presses s.machine.keypad.holds acts).head?) := by
  induction acts generalizing s latch with
  | nil =>
    rw [Action.presses, List.head?_nil, Option.or_none]
    exact asleep
  | cons act rest ih =>
    obtain ⟨first, others⟩ := List.forall_mem_cons.1 ongoing
    obtain ⟨now, later⟩ := List.forall_mem_cons.1 still
    obtain ⟨settings, holds, next⟩ := act_of_asleep asleep first (.inr now)
    have last := ih next others (by rwa [settings])
    rw [holds, Option.or_assoc] at last
    rw [Action.presses, List.head?_append, Option.head?_toList]
    exact last

/-- From the step that executes the waiting instruction on, whatever goes on: until a key goes down,
steps change nothing and a frame is a tick, or has no end if counting does not come to the budget;
once some have, the next step gives the first of them to the register and passes the instruction;
and a key that was held before counts only once it was released. -/
theorem waitKey_protocol {s : Session} {x : Register} {a : Nat} {word : UInt16}
    (running : s.engine.fault = none) (awake : s.machine.keyWait = none)
    (fetches : s.machine.view.Fetches a word) (row : (Instruction.waitKey x).Describes word) :
    (∀ (acts : List Action) (t : Session), t = s.step.state.after acts →
      (∀ act ∈ acts, act.IsOngoing) →
      Action.presses s.machine.keypad.holds acts = [] →
      t.engine.step = ⟨t.engine, .ok (), .none⟩ ∧
        t.frame = if t.settings.instructionsPerFrame.isReached then
          some ⟨t.tick, .ok ⟨0, false⟩, .none⟩ else none) ∧
    (∀ (acts acts' : List Action) (t : Session), t = s.step.state.after (acts ++ acts') →
      (∀ act ∈ acts ++ acts', act.IsOngoing) →
      Action.presses s.machine.keypad.holds acts = [] →
      (∀ act ∈ acts', act.IsStepless s.settings.instructionsPerFrame) →
      ∀ key rest, Action.presses s.machine.keypad.holds (acts ++ acts') = key :: rest →
      t.engine.step = ⟨t.engine.answered x a key, .ok (), .none⟩ ∧
        ∀ n, t.engine.steps (n + 1) = (t.engine.answered x a key).steps n) ∧
    ∀ (acts : List Action) (key : Key), s.machine.keypad.holds key = true →
      (∀ act ∈ acts, ¬ act.Releases key) → key ∉ Action.presses s.machine.keypad.holds acts := by
  obtain ⟨seen, waiting⟩ := Engine.step_waitKey running awake fetches row
  have begun : s.step.state = s.withEngine { s.engine with
      machine := s.machine.beginKeyWait x
      executed := s.engine.executed + 1 } := by
    simp only [Session.step, waiting]
    rfl
  have asleep : s.step.state.engine.Asleep x a none := by
    rw [begun]
    exact ⟨running, rfl, rfl, rfl, fetches.1⟩
  have holds : s.step.state.machine.keypad.holds = s.machine.keypad.holds := by
    rw [begun]
    rfl
  rw [← holds]
  refine ⟨?_, ?_, ?_⟩
  · rintro acts t rfl ongoing quiet
    obtain ⟨-, -, still⟩ := after_of_asleep asleep ongoing quiet
    exact ⟨still.step_none, frame_of_asleep still⟩
  · rintro acts acts' t rfl ongoing quiet still key rest pressed
    -- Up to the first key that goes down the session sleeps; from then on no step is made.
    obtain ⟨first, later⟩ := List.forall_mem_append.1 ongoing
    obtain ⟨settings, down, sleeps⟩ := after_of_asleep asleep first quiet
    have same : (s.step.state.after acts).settings = s.settings := by
      rw [settings, begun]
      rfl
    have caught := after_of_still sleeps later (by rwa [same])
    rw [Action.presses_append, quiet, List.nil_append, ← down] at pressed
    rw [pressed, ← after_append] at caught
    have inside : a + 2 < 65536 := by
      have := fetches.2.1
      omega
    exact ⟨caught.step_some inside, caught.steps_some inside⟩
  · intro acts key held kept
    exact Action.not_mem_presses_of_held held kept

/-- A session at the instruction that waits for a key for register three. -/
def asking : Session :=
  (start {} .off (.cycle [])).boot ⟨[0xF3, 0x0A], by decide⟩

/-- The wait gets the first of two keys, although it was let go. -/
theorem waitKey_protocol_asking :
    ∃ t, t = asking.step.state.after [.frame, .setKey (.finite 7) true,
        .setKey (.finite 7) false, .setKey (.finite 5) true, .tick] ∧
      t.engine.step = ⟨t.engine.answered 3 0x200 7, .ok (), .none⟩ := by
  have fetches : asking.machine.view.Fetches 0x200 0xF30A := by
    refine ⟨rfl, by decide, ?_⟩
    simp [asking, boot, freshEngine, machine, Engine.start, Machine.start, Machine.view,
      Memory.byteAt_load, Memory.programStart]
  have protocol := waitKey_protocol rfl rfl fetches (Instruction.describes_decode 0xF30A)
  refine ⟨_, rfl, ?_⟩
  refine (protocol.2.1 [.frame] [.setKey (.finite 7) true, .setKey (.finite 7) false,
    .setKey (.finite 5) true, .tick] _ rfl ?_ rfl ?_ 7 [5] rfl).1
  · simp only [List.cons_append, List.nil_append, List.forall_mem_cons, List.not_mem_nil,
      false_imp_iff, implies_true, and_true]
    exact ⟨trivial, ⟨7, rfl⟩, ⟨7, rfl⟩, ⟨5, rfl⟩, trivial⟩
  · simp only [List.forall_mem_cons, List.not_mem_nil, false_imp_iff, implies_true, and_true]
    exact ⟨trivial, trivial, trivial, trivial⟩

end Session

end Chip8
