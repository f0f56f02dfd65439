import Chip8.Proofs.Table
/-!
# Faults

What stops an engine, and what a stopped engine has become. `View.Blocks` lists the instructions
that cannot be completed, `Engine.Stops` adds the words that cannot be fetched. `step_fails_iff`
says that nothing else makes a step fail, that a step fails with nothing but a fault at the program
counter, and that it leaves all as it was, except that a transfer which runs over the end of memory
has transferred the bytes in front of it (`View.cutShort`).
-/

namespace Chip8

namespace View

/-- The fault of a transfer that runs over the end of memory. -/
def beyond (s : View) : FaultCause :=
  .machine (.addressOutOfRange (.address (max s.index 0x1000 : Nat)))

/-- The instructions that cannot be completed, and why. -/
inductive Blocks (s : View) (policy : UnknownPolicy) : Instruction → FaultCause → Prop where
  | underflow :
    s.stack = [] →
    Blocks s policy .ret (.machine .stackUnderflow)
  | overflow {target} :
    16 ≤ s.stack.length →
    Blocks s policy (.call target) (.machine .stackOverflow)
  | draw {x y : Register} {rows : Digit} :
    0 < rows.val →
    0xFFF < s.index + rows - 1 →
    Blocks s policy (.draw x y rows) s.beyond
  | storeDecimal {x : Register} :
    0xFFF < s.index + 2 →
    Blocks s policy (.storeDecimal x) s.beyond
  | store {x : Register} :
    0xFFF < s.index + x →
    Blocks s policy (.store x) s.beyond
  | load {x : Register} :
    0xFFF < s.index + x →
    Blocks s policy (.load x) s.beyond
  | storeDecimalProtected {x : Register} {value : UInt8} :
    s.readOnly = true →
    s.index < 0x200 →
    value.toNat = s.register x / 100 →
    Blocks s policy (.storeDecimal x) (.machine (.protectedWrite s.index value))
  | storeProtected {x : Register} {value : UInt8} :
    s.readOnly = true →
    s.index < 0x200 →
    value.toNat = s.register (.ofNat 0) →
    Blocks s policy (.store x) (.machine (.protectedWrite s.index value))
  | unknown {word} :
    policy = .strict →
    Blocks s policy (.unknown word) .unknownOpcode

/-- What is left when an instruction is not completed: a transfer has transferred the bytes in front
of the end of memory, unless the memory at the index holds it back. -/
def cutShort (s : View) : Instruction → View
  | .storeDecimal x =>
    { s with memory := fun k =>
        if (s.readOnly = true → 0x200 ≤ s.index) ∧ k < 0x1000 then s.decimalStored x k
        else s.memory k }
  | .store x =>
    { s with memory := fun k =>
        if (s.readOnly = true → 0x200 ≤ s.index) ∧ k < 0x1000 then s.registersStored x k
        else s.memory k }
  | .load x =>
    { s with register := fun r =>
        if s.index + r < 0x1000 then s.registersLoaded x r else s.register r }
  | _ => s

end View

/-- The place of a natural number is its address if that can be counted to. -/
lemma Place.ofNumber_nat (n : Nat) :
    ofNumber (.finite n) = if isCounted n then .address n else .stray (.finite n) := by
  rw [ofNumber, show (Number.finite (n : Rat)).toInt? = some (n : Int) from
    Number.toInt?_finite_int n]

/-- The address of a natural number is that number. -/
lemma Place.eq_of_ofNumber_nat {n a : Nat} (h : ofNumber (.finite n) = .address a) : n = a := by
  rw [ofNumber_nat] at h
  split at h
  · simp only [address.injEq, Int.natCast_inj] at h
    exact h
  · cases h

namespace Machine

variable {m : Machine} {cause : FaultCause}

/-- What a transfer of some bytes from the index on runs into if they do not all fit into memory. -/
lemma map_overrun_eq_some_iff {count : Nat} :
    (m.overrun count).map .machine = some cause ↔
      0 < count ∧ 0xFFF < m.view.index + count - 1 ∧ cause = m.view.beyond := by
  rw [overrun]
  split
  case isTrue h =>
    simp only [Option.map_some, Option.some.injEq]
    constructor
    · rintro rfl
      exact ⟨h.1, Nat.le_sub_one_of_lt h.2, rfl⟩
    · rintro ⟨-, -, rfl⟩
      rfl
  case isFalse h =>
    simp only [Option.map_none, reduceCtorEq, false_iff]
    rintro ⟨some_, exceeds, -⟩
    exact h ⟨some_, Nat.lt_of_le_pred (Nat.add_pos_right _ some_) exceeds⟩

/-- What storing some bytes from the index on runs into: the font if it is protected, or the end of
memory. -/
lemma map_storeFault_eq_some_iff {count : Nat} {first : UInt8} :
    (m.storeFault count first).map .machine = some cause ↔
      (m.view.readOnly = true ∧ m.view.index < 0x200 ∧
        cause = .machine (.protectedWrite m.view.index first)) ∨
      (0 < count ∧ ¬ (m.view.readOnly = true ∧ m.view.index < 0x200) ∧
        0xFFF < m.view.index + count - 1 ∧ cause = m.view.beyond) := by
  rw [storeFault]
  split
  case isTrue held =>
    simp only [Option.map_some, Option.some.injEq]
    constructor
    · rintro rfl
      exact .inl ⟨held.1, held.2, rfl⟩
    · rintro (⟨-, -, rfl⟩ | ⟨-, free, -⟩)
      · rfl
      · exact absurd held free
  case isFalse free =>
    rw [map_overrun_eq_some_iff]
    constructor
    · rintro ⟨some_, exceeds, e⟩
      exact .inr ⟨some_, free, exceeds, e⟩
    · rintro (⟨p, low, -⟩ | ⟨some_, -, exceeds, e⟩)
      · exact absurd ⟨p, low⟩ free
      · exact ⟨some_, exceeds, e⟩

/-- A word cannot be fetched exactly if one of its bytes lies beyond memory. -/
lemma wordAt_pc_eq_error_iff {n : Nat} {fault : MachineFault}
    (at_ : m.pc = .ofNumber (.finite n)) :
    m.wordAt m.pc = .error fault ↔ 0xFFF < n + 1 ∧
      fault = .addressOutOfRange (if n = 0xFFF then .address 0x1000 else m.pc) := by
  rw [Place.ofNumber_nat] at at_
  by_cases counted : Place.isCounted n
  · have at_ : m.pc = .address n := at_.trans (if_pos counted)
    rw [at_, show m.wordAt (.address n) = m.memory.word n from rfl]
    by_cases inside : n + 1 < 4096
    · obtain ⟨word, fetched, -⟩ := Memory.word_nat (m := m.memory) inside
      rw [fetched]
      simp only [reduceCtorEq, false_iff]
      rintro ⟨outside, -⟩
      exact absurd inside (Nat.not_lt.2 outside)
    · have place : (Place.address (if (n : Int) + 1 = Memory.size then n + 1 else n)) =
          if n = 0xFFF then .address 0x1000 else .address n := by
        by_cases last : n = 0xFFF
        · subst last
          rfl
        · rw [if_neg last, if_neg (by simp only [Memory.size]; omega)]
      have outside : (n : Int) < 0 ∨ (Memory.size : Int) ≤ n + 1 := by
        simp only [Memory.size]
        omega
      rw [Memory.word_outside outside, place, Except.error.injEq, eq_comm]
      exact (and_iff_right (Nat.not_lt.1 inside)).symm
  · have at_ : m.pc = .stray (.finite n) := at_.trans (if_neg counted)
    have large : 4096 ≤ n := by
      simp only [Place.isCounted, Bool.and_eq_true, decide_eq_true_eq] at counted
      omega
    rw [at_, if_neg (by omega), show m.wordAt (.stray (.finite n)) =
      .error (.addressOutOfRange (.stray (.finite n))) from rfl, Except.error.injEq, eq_comm]
    exact (and_iff_right (Nat.lt_succ_of_lt large)).symm

/-- What stands in the way of an instruction can be read off the view. -/
lemma obstacle_eq_some_iff {ins : Instruction} {policy : UnknownPolicy} :
    ins.obstacle policy m = some cause ↔ m.view.Blocks policy ins cause := by
  constructor
  · intro h
    cases ins with
    | ret =>
      simp only [Instruction.obstacle, Option.ite_none_right_eq_some, Option.some.injEq] at h
      obtain ⟨empty, rfl⟩ := h
      exact .underflow (congrArg (List.map _) empty)
    | call target =>
      simp only [Instruction.obstacle, Option.ite_none_right_eq_some, Option.some.injEq] at h
      obtain ⟨full, rfl⟩ := h
      exact .overflow (by rwa [view, List.length_map])
    | draw x y rows =>
      obtain ⟨some_, exceeds, rfl⟩ := map_overrun_eq_some_iff.1 h
      exact .draw some_ exceeds
    | storeDecimal x =>
      obtain ⟨p, low, rfl⟩ | ⟨-, -, exceeds, rfl⟩ := map_storeFault_eq_some_iff.1 h
      · exact .storeDecimalProtected p low (UInt8.toNat_div ..)
      · exact .storeDecimal exceeds
    | store x =>
      obtain ⟨p, low, rfl⟩ | ⟨-, -, exceeds, rfl⟩ := map_storeFault_eq_some_iff.1 h
      · exact .storeProtected p low rfl
      · exact .store exceeds
    | load x =>
      obtain ⟨-, exceeds, rfl⟩ := map_overrun_eq_some_iff.1 h
      exact .load exceeds
    | unknown word =>
      cases policy with
      | strict => cases h; exact .unknown rfl
      | lenient => cases h
    | _ => cases h
  · intro h
    cases h with
    | underflow empty => exact if_pos (List.map_eq_nil_iff.1 empty)
    | overflow full => exact if_pos (by rwa [view, List.length_map] at full)
    | draw some_ exceeds => exact map_overrun_eq_some_iff.2 ⟨some_, exceeds, rfl⟩
    -- A transfer that leaves memory starts far above the protected region.
    | storeDecimal exceeds =>
      refine map_storeFault_eq_some_iff.2 (.inr ⟨by decide, ?_, exceeds, rfl⟩)
      omega
    | @store x exceeds =>
      refine map_storeFault_eq_some_iff.2 (.inr ⟨Nat.succ_pos _, ?_, exceeds, rfl⟩)
      have := x.isLt
      omega
    | load exceeds => exact map_overrun_eq_some_iff.2 ⟨Nat.succ_pos _, exceeds, rfl⟩
    | @storeDecimalProtected x value p low e =>
      have digit := UInt8.toNat_div (m.get x) 100
      have e : value = m.get x / 100 := UInt8.toNat_inj.1 (e.trans digit.symm)
      subst e
      exact map_storeFault_eq_some_iff.2 (.inl ⟨p, low, rfl⟩)
    | @storeProtected x value p low e =>
      have e : value = m.get (.ofNat 0) := UInt8.toNat_inj.1 e
      subst e
      exact map_storeFault_eq_some_iff.2 (.inl ⟨p, low, rfl⟩)
    | unknown strict => subst strict; rfl

end Machine

namespace Instruction

/-- What is left of an instruction that has failed can be read off the view. -/
lemma Remnant.view {ins : Instruction} {m m' : Machine} (h : Remnant ins m m') :
    m'.view = m.view.cutShort ins := by
  have parts : m'.view = { m.view with
      memory := fun k => (m'.memory.byteAt k).toNat
      register := fun x => (m'.get x).toNat } := by
    simp only [Machine.view, h.protection]
    rw [h.rest]
  rw [parts]
  simp only [h.bytes, h.values, apply_ite UInt8.toNat]
  cases ins with
  | storeDecimal x =>
    simp only [toNat_stored_storeDecimal, loaded?, Option.getD_none,
      ite_self]
    rfl
  | store x =>
    simp only [toNat_stored_store, loaded?, Option.getD_none, ite_self]
    rfl
  | load x =>
    simp only [toNat_loaded_load, stored?, Option.getD_none, ite_self]
    rfl
  | _ =>
    simp only [loaded?, stored?, Option.getD_none, ite_self]
    rfl

end Instruction

namespace Engine

variable {e : Engine} {word : UInt16} {cause : FaultCause}

/-- What stops an engine whose program counter is at `n`, with the word that its fault records. -/
inductive Stops (e : Engine) (n : Nat) : UInt16 → FaultCause → Prop where
  | unfetched :
    0xFFF < n + 1 →
    Stops e n 0 (.machine (.addressOutOfRange
      (if n = 0xFFF then .address 0x1000 else e.machine.pc)))
  | blocked {word ins cause} :
    e.machine.view.Fetches n word →
    ins.Describes word →
    e.machine.view.Blocks e.policy ins cause →
    Stops e n word cause

/-- A step fails where the word cannot be fetched, or where something stands in the way of the
instruction. -/
lemma step_eq_error_iff (running : e.fault = none) (awake : e.machine.keyWait = none) :
    e.step.result = .error (.stopped ⟨cause, e.machine.pc, word⟩) ↔
      (∃ fault, e.machine.wordAt e.machine.pc = .error fault ∧
        word = 0 ∧ cause = .machine fault) ∨
      (e.machine.wordAt e.machine.pc = .ok word ∧
        (Instruction.decode word).obstacle e.policy e.machine = some cause) := by
  have way := e.step_stepped
  generalize e.step = t at way
  cases way with
  | halted halted => rw [running] at halted; cases halted
  | polled _ waits => rw [awake] at waits; cases waits
  | unfetched _ _ fetched =>
    rw [fetched]
    simp only [Except.error.injEq, Error.stopped.injEq, Fault.mk.injEq, reduceCtorEq, false_and,
      or_false, exists_eq_left', true_and]
    tauto
  | completed _ _ fetched clear =>
    rw [fetched]
    simp only [reduceCtorEq, false_and, exists_false, false_or, false_iff]
    rintro ⟨same, h⟩
    cases same
    rw [clear] at h
    cases h
  | stopped _ _ fetched h remnant =>
    rw [fetched]
    simp only [reduceCtorEq, false_and, exists_false, false_or, Except.error.injEq,
      Error.stopped.injEq, Fault.mk.injEq, true_and, Except.ok.injEq]
    constructor
    · rintro ⟨rfl, rfl⟩
      exact ⟨rfl, h⟩
    · rintro ⟨rfl, h'⟩
      rw [h] at h'
      cases h'
      exact ⟨rfl, rfl⟩

/-- A return without a call stops the engine. -/
lemma step_of_underflow {a : Nat} (running : e.fault = none) (awake : e.machine.keyWait = none)
    (fetches : e.machine.view.Fetches a 0x00EE) (empty : e.machine.stack = []) :
    e.step.result = .error (.stopped ⟨.machine .stackUnderflow, e.machine.pc, 0x00EE⟩) :=
  (step_eq_error_iff running awake).2
    (.inr ⟨Machine.wordAt_pc_eq_ok_iff.2 ⟨a, fetches⟩, if_pos empty⟩)

/-- A step of an engine that neither stopped nor waits, its program counter being a natural number,
fails exactly for what stops it. It fails with a fault at the program counter, and the engine has
stopped there with nothing changed but for a transfer that was cut short. -/
theorem step_fails_iff {n : Nat} (running : e.fault = none) (awake : e.machine.keyWait = none)
    (at_ : e.machine.pc = .ofNumber (.finite n)) :
    (∀ word cause, e.step.result = .error (.stopped ⟨cause, e.machine.pc, word⟩) ↔
      e.Stops n word cause) ∧
    ∀ error, e.step.result = .error error → ∃ word cause ins m,
      error = .stopped ⟨cause, e.machine.pc, word⟩ ∧
      e.step.state = { e with machine := m, fault := some ⟨cause, e.machine.pc, word⟩ } ∧
      ins.Describes word ∧ m.view = e.machine.view.cutShort ins := by
  refine ⟨?_, ?_⟩
  · intro word cause
    rw [step_eq_error_iff running awake]
    constructor
    · rintro (⟨fault, unfetched, rfl, rfl⟩ | ⟨fetched, h⟩)
      · obtain ⟨outside, rfl⟩ := (Machine.wordAt_pc_eq_error_iff at_).1 unfetched
        exact .unfetched outside
      · obtain ⟨a, fetches⟩ := Machine.wordAt_pc_eq_ok_iff.1 fetched
        have same := Place.eq_of_ofNumber_nat (at_.symm.trans fetches.1)
        subst same
        have row := Instruction.describes_decode word
        exact .blocked fetches row (Machine.obstacle_eq_some_iff.1 h)
    · intro stops
      cases stops with
      | unfetched outside =>
        exact .inl ⟨_, (Machine.wordAt_pc_eq_error_iff at_).2 ⟨outside, rfl⟩, rfl, rfl⟩
      | blocked fetches row blocks =>
        refine .inr ⟨Machine.wordAt_pc_eq_ok_iff.2 ⟨n, fetches⟩, ?_⟩
        rw [row.decode_eq]
        exact Machine.obstacle_eq_some_iff.2 blocks
  -- Of the ways that a step can go, only two fail, both with a fault at the program counter.
  · intro error failed
    have way := e.step_stepped
    generalize e.step = t at way failed
    cases way with
    | halted | polled | completed => cases failed
    | unfetched =>
      cases failed
      exact ⟨_, _, _, e.machine, rfl, rfl, Instruction.describes_decode 0, rfl⟩
    | stopped _ _ _ _ remnant =>
      cases failed
      exact ⟨_, _, _, _, rfl, rfl, Instruction.describes_decode _, remnant.view⟩

/-- An engine at a word that is no instruction. -/
def lost : Engine := .start (.start .blank) {} .strict .off (.cycle [])

/-- What the step of that engine would have to fail with. -/
theorem step_fails_iff_lost : lost.fault = none ∧ lost.machine.keyWait = none ∧
    lost.machine.pc = .ofNumber (.finite (512 : Nat)) ∧
    (lost.step.result = .error (.stopped ⟨.unknownOpcode, lost.machine.pc, 0⟩) ↔
      lost.Stops 512 0 .unknownOpcode) :=
  have at_ : lost.machine.pc = .ofNumber (.finite (512 : Nat)) :=
    (Place.ofNumber_int (a := 512) rfl).symm
  ⟨rfl, rfl, at_, (step_fails_iff rfl rfl at_).1 _ _⟩

end Engine

end Chip8
