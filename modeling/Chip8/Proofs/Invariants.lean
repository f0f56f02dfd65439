import Chip8.Proofs.Spinning
/-!
# The states of a session

What all sessions that can be reached have in common. `View.InRange` bounds the index, the program
counter and the call stack; every row of the instruction table keeps these bounds
(`View.InRange.effect`), and since a wait ends behind an instruction in memory, so does every step
(`inRange_invariant`). `ranges_of_reachable` draws from it that no increment of the program counter
is cut to sixteen bits, and `waits_of_reachable` says in which states a session waits for a key.
-/

namespace Chip8

namespace View

variable {s : View}

/-- The ranges of index, program counter and call stack. A jump by an offset goes furthest, and a
call is made from within memory. -/
structure InRange (s : View) : Prop where
  index : s.index ≤ 0xFFF
  pc : ∃ a : Nat, a ≤ 0x10FE ∧ s.pc = .address a
  depth : s.stack.length ≤ 16
  returns : ∀ a ∈ s.stack, 2 ≤ a ∧ a ≤ 0x1000

/-- Registers and timers hold bytes. -/
structure HoldsBytes (s : View) : Prop where
  register (x : Register) : s.register x ≤ 0xFF
  delay : s.delay ≤ 0xFF
  sound : s.sound ≤ 0xFF

namespace InRange

/-- A jump stays in range if its target does. -/
lemma goTo (h : s.InRange) {a : Nat} (within : a ≤ 0x10FE) : (s.goTo a).InRange :=
  ⟨h.index, ⟨a, within, rfl⟩, h.depth, h.returns⟩

/-- An instruction that may pass the next one stays in range. -/
lemma skipIf (h : s.InRange) {a : Nat} (inside : a + 2 ≤ 0x1000) {p : Prop} [Decidable p] :
    (s.skipIf a p).InRange := by
  rw [View.skipIf]
  split <;> exact h.goTo (by omega)

/-- A register is put a byte into. -/
lemma put (h : s.InRange) (x : Register) (value : Nat) : (s.put x value).InRange :=
  ⟨h.index, h.pc, h.depth, h.returns⟩

/-- The result of a logical instruction stays in range. -/
lemma putLogic (h : s.InRange) (d : Dialect) (x : Register) (value : Nat) :
    (s.putLogic d x value).InRange := by
  rw [View.putLogic_eq]
  exact ⟨h.index, h.pc, h.depth, h.returns⟩

/-- The index stays in range if it is an address. -/
lemma withIndex (h : s.InRange) {i : Nat} (within : i ≤ 0xFFF) :
    ({ s with index := i } : View).InRange :=
  ⟨within, h.pc, h.depth, h.returns⟩

/-- The index stays in range after a transfer of registers. -/
lemma moved (h : s.InRange) (d : Dialect) (x : Register) : (s.moved d x).InRange := by
  rw [View.moved]
  split
  · exact h.withIndex (by omega)
  · exact h

/-- Every row of the table keeps the ranges, the row of a call if there is room on the stack. -/
lemma effect {d : Dialect} {a byte : Nat} {ins : Instruction} (h : s.InRange)
    (bytes : s.HoldsBytes) (inside : a + 2 ≤ 0x1000)
    (room : ∀ target, ins = .call target → s.stack.length < 16) :
    (s.effect d a byte ins).InRange := by
  have next : (s.goTo (a + 2)).InRange := h.goTo (by omega)
  cases ins with
  | jump target => exact h.goTo (by omega)
  | jumpOffset target =>
    have offset := bytes.register (.ofNat 0)
    exact h.goTo (by omega)
  | call target =>
    refine ⟨h.index, ⟨target, by omega, rfl⟩, room target rfl, ?_⟩
    simp only [View.effect, List.forall_mem_cons]
    exact ⟨by omega, h.returns⟩
  | ret =>
    cases top : s.stack with
    | nil =>
      simp only [View.effect, top]
      exact ⟨h.index, ⟨0, by omega, rfl⟩, Nat.zero_le _, List.forall_mem_nil _⟩
    | cons target rest =>
      have depth := h.depth
      have returns := h.returns
      rw [top, List.length_cons] at depth
      rw [top, List.forall_mem_cons] at returns
      simp only [View.effect, top]
      exact ⟨h.index, ⟨target, by omega, rfl⟩, Nat.le_of_succ_le depth, returns.2⟩
  | skipEqualByte | skipUnequalByte | skipEqual | skipUnequal | skipKeyDown | skipKeyUp =>
    exact h.skipIf inside
  | setByte | addByte | copy | random | getDelay => exact next.put _ _
  | or | and | xor => exact next.putLogic _ _ _
  | add | sub | subFrom | shiftRight | shiftLeft => exact (next.put _ _).put _ _
  | setIndex | addIndex | setGlyph => exact next.withIndex (by omega)
  | store x =>
    have stored : ({ s.goTo (a + 2) with memory := s.registersStored x } : View).InRange :=
      ⟨next.index, next.pc, next.depth, next.returns⟩
    exact stored.moved d x
  | load x =>
    have loaded : ({ s.goTo (a + 2) with register := s.registersLoaded x } : View).InRange :=
      ⟨next.index, next.pc, next.depth, next.returns⟩
    exact loaded.moved d x
  | waitKey => exact ⟨h.index, h.pc, h.depth, h.returns⟩
  | clear | draw | setDelay | setSound | storeDecimal | unknown =>
    exact ⟨next.index, next.pc, next.depth, next.returns⟩

end InRange

end View

/-- Memory, registers and timers of a machine hold bytes. -/
lemma Machine.holdsBytes_view (m : Machine) : m.view.HoldsBytes where
  register x := Nat.le_of_lt_succ (m.get x).toNat_lt
  delay := Nat.le_of_lt_succ m.delay.toNat_lt
  sound := Nat.le_of_lt_succ m.sound.toNat_lt

namespace Engine

variable {e : Engine} {target : Register}

/-- The machines whose program counter a step moves on: the one at the instruction that is fetched,
the one behind it when it passes over the instruction that follows, and the one that has got the key
it waited for. -/
inductive MovesOn (e : Engine) : Machine → Prop where
  | fetched : MovesOn e e.machine
  | passed : MovesOn e e.machine.skip
  | answered {target key m} :
    e.machine.keyWait = some target →
    e.machine.takeKey = (some key, m) →
    MovesOn e (m.set target (UInt8.ofNat key.val))

/-- The program counter has an address behind that of an engine that moves on. -/
lemma MovesOn.pc_skip {m : Machine} (moves : e.MovesOn m) (h : e.machine.view.InRange) :
    ∃ a : Nat, m.pc = .address a ∧ m.skip.pc = .address (a + 2 : Nat) := by
  obtain ⟨a, within, at_⟩ := h.pc
  have next : e.machine.skip.pc = .address (a + 2 : Nat) :=
    (congrArg Place.next at_).trans (Place.next_address (by omega))
  cases moves with
  | fetched => exact ⟨a, at_, next⟩
  | passed => exact ⟨a + 2, next, (congrArg Place.next next).trans (Place.next_address (by omega))⟩
  | @answered target key m _ taken =>
    have same : m.pc = e.machine.pc := by rw [Machine.eq_of_takeKey taken]
    exact ⟨a, same.trans at_, (congrArg Place.next same).trans next⟩

/-- A look for a key stays in range. -/
lemma InRange.poll (h : e.machine.view.InRange) (agrees : e.WaitAgrees)
    (waits : e.machine.keyWait = some target) : (e.poll target).machine.view.InRange := by
  cases caught : e.machine.keypad.latched with
  | none => rwa [poll_of_latched_none waits caught]
  | some key =>
    obtain ⟨a, word, fetches, -⟩ := agrees.held waits
    have inside := fetches.2.1
    have next : e.machine.pc.next = .address (a + 2 : Nat) :=
      (congrArg Place.next fetches.1).trans (Place.next_address (by omega))
    rw [poll_of_latched_some waits (agrees.armed_of_waits waits) caught]
    exact ⟨h.index, ⟨a + 2, by omega, next⟩, h.depth, h.returns⟩

/-- An instruction that is completed stays in range. -/
lemma InRange.completed {word : UInt16} (h : e.machine.view.InRange)
    (fetched : e.machine.wordAt e.machine.pc = .ok word)
    (clear : (Instruction.decode word).obstacle e.policy e.machine = none) :
    (e.completed word).machine.view.InRange := by
  obtain ⟨a, fetches, view⟩ := view_completed fetched clear
  rw [view]
  refine h.effect e.machine.holdsBytes_view fetches.2.1 ?_
  intro target row
  rw [row, Instruction.obstacle, ite_eq_right_iff] at clear
  rw [Machine.view, List.length_map]
  exact Nat.lt_of_not_le fun full => Option.some_ne_none _ (clear full)

/-- The ranges are kept at any time. The bound on the program counter needs that a wait takes place
at an instruction in memory. -/
lemma inRange_invariant : Invariant fun e => e.WaitAgrees ∧ e.machine.view.InRange where
  step {e} h := by
    refine ⟨waitAgrees_invariant.step h.1, ?_⟩
    have way := e.step_stepped
    generalize e.step = t at way
    cases way with
    | halted => exact h.2
    | polled _ waits => exact InRange.poll h.2 h.1 waits
    | unfetched => exact h.2
    | completed _ _ fetched clear => exact InRange.completed h.2 fetched clear
    -- An instruction that was not completed has changed memory and registers at most.
    | stopped _ _ _ _ remnant =>
      rw [remnant.rest]
      exact ⟨h.2.index, h.2.pc, h.2.depth, h.2.returns⟩
  tick h := ⟨waitAgrees_invariant.tick h.1, h.2.index, h.2.pc, h.2.depth, h.2.returns⟩
  press key down h :=
    ⟨waitAgrees_invariant.press key down h.1, h.2.index, h.2.pc, h.2.depth, h.2.returns⟩
  release h := ⟨waitAgrees_invariant.release h.1, h.2.index, h.2.pc, h.2.depth, h.2.returns⟩
  fresh settings tracing rom random :=
    ⟨waitAgrees_invariant.fresh settings tracing rom random, Nat.zero_le _,
      ⟨0x200, by omega, rfl⟩, Nat.zero_le _, List.forall_mem_nil _⟩
  hook on h := ⟨waitAgrees_invariant.hook on h.1, h.2⟩
  policy policy h := ⟨waitAgrees_invariant.policy policy h.1, h.2⟩

end Engine

namespace Session

variable {s : Session}

/-- In every session that can be reached, index, program counter, call stack, registers and timers
are in their ranges and every pixel is on or off. So no step, of a frame or by itself, cuts the
program counter to sixteen bits where it moves it on, and it can always be told whether the program
is at a jump to itself. -/
theorem ranges_of_reachable (reachable : s.Reachable) :
    s.machine.view.InRange ∧ s.machine.view.HoldsBytes ∧
      (∀ cell ∈ s.machine.screen.toBytes, cell = 0 ∨ cell = 1) ∧
      (∀ n m, (s.engine.steps n).state.MovesOn m →
        ∃ a : Nat, m.pc = .address a ∧ m.skip.pc = .address (a + 2 : Nat)) ∧
      ∃ spinning, s.isSpinning = .ok spinning := by
  have ranges := Engine.inRange_invariant.reachable reachable
  obtain ⟨a, -, at_⟩ := ranges.2.pc
  refine ⟨ranges.2, s.machine.holdsBytes_view, ?_, ?_, isSpinning_of_address at_⟩
  · intro cell shown
    obtain ⟨on, -, rfl⟩ := List.mem_map.1 shown
    cases on
    · exact .inl rfl
    · exact .inr rfl
  · intro n m moves
    exact moves.pc_skip (Engine.inRange_invariant.stepsFrom ranges .none n).2

/-- The program that jumps as far as one can. -/
def leap : Rom := ⟨[0x60, 0xFF, 0xBF, 0xFF], by decide⟩

/-- A jump with an offset goes beyond memory, and still in range. -/
theorem ranges_of_reachable_leap :
    ∃ s : Session, s.Reachable ∧ s.machine.view.InRange ∧ s.machine.pc = .address 0x10FE := by
  obtain ⟨s, begins⟩ := exists_begins leap
  -- The first step loads the offset, the second one jumps.
  have first := begins.follows
  obtain ⟨-, second, view⟩ := first.step 0x60FF 2 ⟨by decide, rfl⟩ rfl ⟨rfl, rfl, rfl⟩
  have offset : s.step.state.machine.view.register (.ofNat 0) = 0xFF :=
    congrFun (congrArg View.register view) (.ofNat 0)
  obtain ⟨-, -, view'⟩ := Engine.step_of_describes second.running second.awake
    (second.fetches ⟨by decide, rfl⟩) (Instruction.describes_decode 0xBFFF) rfl
  have pc := congrArg View.pc view'
  have reachable := begins.reachable.step.step
  refine ⟨_, reachable, (ranges_of_reachable reachable).1, pc.trans ?_⟩
  exact congrArg (fun n : Nat => Place.address (0xFFF + n : Nat)) offset

/-- A session that can be reached waits for a key exactly if its keypad is armed, and only an armed
keypad has caught a key. While it waits, the engine runs and the program counter is at the word in
memory that waits for the key, so that the program is not at a jump to itself. -/
theorem waits_of_reachable (reachable : s.Reachable) :
    (s.machine.keyWait.isSome = true ↔ s.machine.keypad.waiting = true) ∧
      (∀ key, s.machine.keypad.latched = some key →
        s.machine.keypad.waiting = true ∧ key.val < 16) ∧
      ∀ x, s.machine.keyWait = some x →
        s.engine.halted = false ∧
        (∃ a : Nat, a ≤ 0xFFE ∧ s.machine.pc = .address a ∧
          ∃ word, s.machine.wordAt s.machine.pc = .ok word ∧
            word.toNat = 0xF00A + x.val * 0x100) ∧
        s.isSpinning = .ok false := by
  have agrees := Engine.waitAgrees_invariant.reachable reachable
  refine ⟨?_, ?_, ?_⟩
  · exact (congrArg (· = true) agrees.armed).symm.to_iff
  · intro key caught
    refine ⟨?_, key.isLt⟩
    by_contra idle
    have nothing := agrees.caught (Bool.not_eq_true _ |>.mp idle)
    cases caught.symm.trans nothing
  · intro x waits
    obtain ⟨a, word, fetches, row⟩ := agrees.held waits
    have inside := fetches.2.1
    have code : 0x1000 * 0xF + 0x100 * x.val + 0x0A = word.toNat := row.1
    refine ⟨Engine.halted_of_running (agrees.running (Option.isSome_of_eq_some waits)),
      ⟨a, by omega, fetches.1, word, Machine.wordAt_pc_eq_ok_iff.2 ⟨a, fetches⟩, by omega⟩, ?_⟩
    obtain ⟨spinning, told⟩ := isSpinning_of_address fetches.1
    cases spinning with
    | false => exact told
    | true =>
      have awake := agrees.awake_of_self (isSpinning_eq_true_iff.1 told)
      cases waits.symm.trans awake

/-- A program that waits for a key with its program counter at the instruction. -/
theorem waits_of_reachable_asking :
    ∃ s : Session, s.Reachable ∧ s.machine.keyWait = some 3 ∧ s.engine.halted = false ∧
      (∃ word, s.machine.wordAt s.machine.pc = .ok word ∧ word.toNat = 0xF00A + 3 * 0x100) ∧
      s.isSpinning = .ok false := by
  obtain ⟨s, begins⟩ := exists_begins ⟨[0xF3, 0x0A], by decide⟩
  have fetches : s.machine.view.Fetches 0x200 0xF30A := begins.fetches ⟨by decide, rfl⟩
  obtain ⟨-, -, view⟩ := Engine.step_of_describes begins.running begins.awake fetches
    (Instruction.describes_decode 0xF30A) rfl
  have waits : s.step.state.machine.keyWait = some 3 := congrArg View.target view
  have reachable := begins.reachable.step
  obtain ⟨-, -, waiting⟩ := waits_of_reachable reachable
  obtain ⟨runs, ⟨a, -, -, found⟩, still⟩ := waiting 3 waits
  exact ⟨_, reachable, waits, runs, found, still⟩

end Session

end Chip8
