import Chip8.Proofs.Programs
/-!
# Waiting for a key

A wait is kept in two halves: the machine knows the register that the key is for, the keypad
whether it is armed and what it has caught. `Engine.WaitAgrees` says that the halves agree, and that
a machine which waits is at the instruction that made it wait. `waitAgrees_invariant` is the main
result: this holds of every session that can be reached. The lemmas in front say how a wait goes on
and ends.
-/

namespace Chip8

/-- Only the instruction that waits changes what the keypad waits for. -/
lemma View.effect_wait (s : View) (d : Dialect) (a byte : Nat) (ins : Instruction) :
    (∃ x, ins = .waitKey x) ∨
      (s.effect d a byte ins).target = s.target ∧ (s.effect d a byte ins).armed = s.armed ∧
        (s.effect d a byte ins).caught = s.caught := by
  cases ins with
  | waitKey x => exact .inl ⟨x, rfl⟩
  | or | and | xor =>
    rw [effect, putLogic_eq]
    exact .inr ⟨rfl, rfl, rfl⟩
  | store | load =>
    rw [effect, moved_eq]
    exact .inr ⟨rfl, rfl, rfl⟩
  | _ => exact .inr ⟨rfl, rfl, rfl⟩

namespace Keypad

variable {k : Keypad}

/-- A keypad that does not wait catches no key. -/
lemma latched_press_of_idle (idle : k.waiting = false) (key : Key) (down : Bool) :
    (k.press key down).latched = k.latched := by
  rw [press, idle]
  rfl

end Keypad

/-- Taking a key ends the wait and changes nothing else but the keypad. -/
lemma Machine.eq_of_takeKey {m m' : Machine} {key : Key} (taken : m.takeKey = (some key, m')) :
    m' = { m with keypad := m'.keypad, keyWait := none } := by
  rw [takeKey] at taken
  split at taken
  · cases taken
  · split at taken
    · cases taken
      rfl
    · cases taken

namespace Engine

variable {e : Engine} {target : Register}

/-- A poll changes nothing but what the end of a wait changes. -/
lemma poll_rest (e : Engine) (target : Register) :
    e.poll target = { e with
      machine := { e.machine with
        registers := (e.poll target).machine.registers
        pc := (e.poll target).machine.pc
        keypad := (e.poll target).machine.keypad
        keyWait := (e.poll target).machine.keyWait }
      executed := (e.poll target).executed } := by
  rw [poll]
  split
  · rfl
  case h_2 key m taken =>
    rw [Machine.eq_of_takeKey taken]
    rfl

/-- A wait goes on while nothing is caught. -/
lemma poll_of_latched_none (waits : e.machine.keyWait = some target)
    (missing : e.machine.keypad.latched = none) : e.poll target = e := by
  have take : e.machine.keypad.take = (none, e.machine.keypad) := by
    rw [Keypad.take, missing]
    split
    case h_1 caught => cases caught
    case h_2 => rfl
  simp only [poll, Machine.takeKey, waits, take]

/-- A wait ends with the key that was caught. -/
lemma poll_of_latched_some {key : Key} (waits : e.machine.keyWait = some target)
    (armed : e.machine.keypad.waiting = true) (caught : e.machine.keypad.latched = some key) :
    e.poll target = { e with
      machine := ({ e.machine with
        keypad := { e.machine.keypad with waiting := false, latched := none }
        keyWait := none }.set target (UInt8.ofNat key.val)).skip
      executed := e.executed + 1 } := by
  have take : e.machine.keypad.take =
      (some key, { e.machine.keypad with waiting := false, latched := none }) := by
    rw [Keypad.take, armed, caught]
  simp only [poll, Machine.takeKey, waits, take]

/-- The two halves of a wait agree, and a machine that waits is at the instruction that made it
wait. -/
structure WaitAgrees (e : Engine) : Prop where
  armed : e.machine.keypad.waiting = e.machine.keyWait.isSome
  caught : e.machine.keypad.waiting = false → e.machine.keypad.latched = none
  running : e.machine.keyWait.isSome → e.fault = none
  held {x : Register} : e.machine.keyWait = some x →
    ∃ a word, e.machine.view.Fetches a word ∧ (Instruction.waitKey x).Describes word

/-- Nothing has to agree where nothing waits. -/
lemma WaitAgrees.of_awake (awake : e.machine.keyWait = none)
    (idle : e.machine.keypad.waiting = false) (nothing : e.machine.keypad.latched = none) :
    e.WaitAgrees where
  armed := by rw [awake, idle]; rfl
  caught _ := nothing
  running h := by rw [awake] at h; cases h
  held h := by rw [awake] at h; cases h

/-- The keypad does not wait if the engine does not. -/
lemma WaitAgrees.idle (h : e.WaitAgrees) (awake : e.machine.keyWait = none) :
    e.machine.keypad.waiting = false := by
  rw [h.armed, awake]
  rfl

/-- The keypad waits if the engine does. -/
lemma WaitAgrees.armed_of_waits (h : e.WaitAgrees) (waits : e.machine.keyWait = some target) :
    e.machine.keypad.waiting = true := by
  rw [h.armed, waits]
  rfl

/-- A look for a key keeps engine and keypad in agreement. -/
lemma WaitAgrees.poll (h : e.WaitAgrees) (waits : e.machine.keyWait = some target) :
    (e.poll target).WaitAgrees := by
  cases caught : e.machine.keypad.latched with
  | none => rwa [poll_of_latched_none waits caught]
  | some key =>
    rw [poll_of_latched_some waits (h.armed_of_waits waits) caught]
    exact .of_awake rfl rfl rfl

/-- An instruction that is completed keeps engine and keypad in agreement. -/
lemma WaitAgrees.completed {word : UInt16} (h : e.WaitAgrees) (running : e.fault = none)
    (awake : e.machine.keyWait = none) (fetched : e.machine.wordAt e.machine.pc = .ok word)
    (clear : (Instruction.decode word).obstacle e.policy e.machine = none) :
    (e.completed word).WaitAgrees := by
  obtain ⟨a, fetches, view⟩ := view_completed fetched clear
  -- Only the row of the waiting instruction touches the halves of a wait, and it sets both.
  obtain ⟨x, row⟩ | ⟨target, armed, caught⟩ := View.effect_wait e.machine.view e.dialect a
    (e.random.bytes e.random.drawn).toNat (Instruction.decode word)
  · rw [row] at view
    have target : (e.completed word).machine.keyWait = some x := congrArg View.target view
    have armed : (e.completed word).machine.keypad.waiting = true := congrArg View.armed view
    refine ⟨?_, ?_, ?_, ?_⟩
    · rw [target, armed]
      rfl
    · intro idle
      rw [armed] at idle
      cases idle
    · intro _
      exact running
    · intro x' waits
      rw [target] at waits
      cases waits
      rw [view]
      have describes := Instruction.describes_decode word
      rw [row] at describes
      exact ⟨a, word, fetches, describes⟩
  · rw [← view] at target armed caught
    have idle := h.idle awake
    exact .of_awake (target.trans awake) (armed.trans idle) (caught.trans (h.caught idle))

/-- The two halves of a wait agree at any time. -/
lemma waitAgrees_invariant : Invariant WaitAgrees where
  step {e} h := by
    have way := e.step_stepped
    generalize e.step = t at way
    cases way with
    | halted => exact h
    | polled _ waits => exact h.poll waits
    | unfetched _ awake => exact .of_awake awake (h.idle awake) (h.caught (h.idle awake))
    | completed running awake fetched clear => exact h.completed running awake fetched clear
    -- An instruction that was not completed has changed memory and registers at most.
    | stopped _ awake _ _ remnant =>
      have idle := h.idle awake
      have rest := remnant.rest
      refine .of_awake ?_ ?_ ?_
      · rw [rest]; exact awake
      · rw [rest]; exact idle
      · rw [rest]; exact h.caught idle
  tick h := ⟨h.armed, h.caught, h.running, h.held⟩
  press {e} key down h := by
    refine ⟨h.armed, ?_, h.running, h.held⟩
    intro idle
    have same := Keypad.latched_press_of_idle (k := e.machine.keypad) idle key down
    exact same.trans (h.caught idle)
  release h := ⟨h.armed, h.caught, h.running, h.held⟩
  fresh settings tracing rom random := .of_awake rfl rfl rfl
  hook _ h := ⟨h.armed, h.caught, h.running, h.held⟩
  policy _ h := ⟨h.armed, h.caught, h.running, h.held⟩

end Engine

end Chip8
