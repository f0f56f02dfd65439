import Chip8.Proofs.Dialects
/-!
# Storing registers and loading them back

A store of the registers from zero up to `x` and a load of the same registers from the same index
undo each other. The store changes no register (`store_step`), the load no byte of memory
(`load_step`), and the load finds what the store has put there (`registersLoaded_registersStored`).
`load_after_store` says this of two instructions that follow one another, whatever becomes of the
registers in between, as long as the store does not overwrite the load.
-/

namespace Chip8

namespace View

variable {s t : View} {x r : Register} {a : Nat} {word : UInt16}

/-- Where a transfer of the registers up to `x` leaves the index that it started at. -/
def indexBehind (s : View) (d : Dialect) (x : Register) : Nat :=
  if d.transferMovesIndex then (s.index + x + 1) % 0x1000 else s.index

/-- The index behind a transfer of registers. -/
lemma moved_index (s : View) (d : Dialect) (x : Register) :
    s.moved d x = { s with index := s.indexBehind d x } := by
  rw [moved, indexBehind]
  split <;> rfl

/-- What was stored from the index on is what is loaded from there. -/
lemma registersLoaded_registersStored (index : t.index = s.index)
    (memory : t.memory = s.registersStored x) (below : r ≤ x) :
    t.registersLoaded x r = s.register r := by
  have digit : Digit.ofNat (s.index + r - s.index) = r := by
    rw [Nat.add_sub_cancel_left]
    exact Fin.ext (Nat.mod_eq_of_lt r.isLt)
  have reached : s.index ≤ s.index + r.val ∧ s.index + r.val ≤ s.index + x.val :=
    ⟨Nat.le_add_right _ _, Nat.add_le_add_left below _⟩
  rw [registersLoaded, if_pos below, memory, index, registersStored, if_pos reached, digit]

/-- A word that the stored registers do not reach stays where it is. -/
lemma fetches_registersStored (there : (s.goTo a).Fetches a word)
    (apart : s.index + x < a ∨ a + 1 < s.index) (pc : t.pc = .address a)
    (memory : t.memory = s.registersStored x) : t.Fetches a word := by
  obtain ⟨-, inside, bytes⟩ := there
  have kept : ∀ k, k = a ∨ k = a + 1 → t.memory k = s.memory k := by
    intro k near
    rw [memory, registersStored, if_neg (by omega)]
  refine ⟨pc, inside, ?_⟩
  rw [kept a (.inl rfl), kept (a + 1) (.inr rfl)]
  exact bytes

end View

namespace Engine

variable {e : Engine} {x : Register} {a : Nat} {word : UInt16}

/-- The engine with other registers and another index, as a host may leave it. -/
def withRegisters (e : Engine) (registers : Vector UInt8 16) (index : UInt16) : Engine :=
  e.withMachine { e.machine with registers := registers, index := index }

/-- A store of registers that is not held back changes memory, program counter and index only. -/
lemma store_step (running : e.fault = none) (awake : e.machine.keyWait = none)
    (here : e.machine.view.Fetches a word) (row : (Instruction.store x).Describes word)
    (free : 0x200 ≤ e.machine.index.toNat) (fits : e.machine.index.toNat + x ≤ 0xFFF) :
    e.step.result = .ok () ∧ e.step.state.fault = none ∧
      e.step.state.machine.view =
        { e.machine.view.goTo (a + 2) with
          memory := e.machine.view.registersStored x
          index := e.machine.view.indexBehind e.dialect x } := by
  have clear : (Instruction.store x).obstacle e.policy e.machine = none := by
    refine Option.map_eq_none_iff.2 (Machine.storeFault_eq_none_iff.2 ⟨fun _ => free, .inr ?_⟩)
    simp only [Memory.size]
    omega
  obtain ⟨done, still, view⟩ := step_of_describes running awake here row clear
  exact ⟨done, still, view.trans (View.moved_index _ _ _)⟩

/-- A load of registers from within memory changes these, program counter and index only. -/
lemma load_step (running : e.fault = none) (awake : e.machine.keyWait = none)
    (here : e.machine.view.Fetches a word) (row : (Instruction.load x).Describes word)
    (fits : e.machine.index.toNat + x ≤ 0xFFF) :
    e.step.result = .ok () ∧
      e.step.state.machine.view =
        { e.machine.view.goTo (a + 2) with
          register := e.machine.view.registersLoaded x
          index := e.machine.view.indexBehind e.dialect x } := by
  have clear : (Instruction.load x).obstacle e.policy e.machine = none := by
    refine Option.map_eq_none_iff.2 (Machine.overrun_eq_none_iff.2 (.inr ?_))
    simp only [Memory.size]
    omega
  obtain ⟨done, -, view⟩ := step_of_describes running awake here row clear
  exact ⟨done, view.trans (View.moved_index _ _ _)⟩

/-- An engine at a store of the registers from zero up to `x`, with the load of the same registers
behind it. The registers fit between the start of programs and the end of memory, and the store does
not reach the load. After the store, these registers may become anything, and the index becomes what
it was, which it still is in a dialect where transfers do not move it. Then the load gives all
registers back, and the memory holds those that were stored and is else as it was before. -/
theorem load_after_store {word' : UInt16} (running : e.fault = none)
    (awake : e.machine.keyWait = none) (here : e.machine.view.Fetches a word)
    (saves : (Instruction.store x).Describes word)
    (there : (e.machine.view.goTo (a + 2)).Fetches (a + 2) word')
    (restores : (Instruction.load x).Describes word')
    (free : 0x200 ≤ e.machine.index.toNat) (fits : e.machine.index.toNat + x ≤ 0xFFF)
    (apart : e.machine.index.toNat + x < a + 2 ∨ a + 3 < e.machine.index.toNat) :
    let i := e.machine.index.toNat
    let left := if e.dialect.transferMovesIndex then (i + x + 1) % 0x1000 else i
    let m := e.step.state.machine
    e.step.result = .ok () ∧ m.index.toNat = left ∧
      ∀ registers : Vector UInt8 16, (∀ r, x < r → registers.get r = m.get r) →
        let t := (e.step.state.withRegisters registers e.machine.index).step
        t.result = .ok () ∧ (∀ r, t.state.machine.get r = e.machine.get r) ∧
          t.state.machine.index.toNat = left ∧
          ∀ k, t.state.machine.memory.byteAt k =
            if i ≤ k ∧ k ≤ i + x then e.machine.get (.ofNat (k - i))
            else e.machine.memory.byteAt k := by
  intro i left m
  obtain ⟨done, running', view⟩ := store_step running awake here saves free fits
  refine ⟨done, congrArg View.index view, ?_⟩
  intro registers beyond t
  let between := e.step.state.withRegisters registers e.machine.index
  have memory : between.machine.view.memory = e.machine.view.registersStored x :=
    congrArg View.memory view
  have next : between.machine.view.Fetches (a + 2) word' :=
    View.fetches_registersStored there apart (congrArg View.pc view) memory
  have awake' : between.machine.keyWait = none := (congrArg View.target view).trans awake
  obtain ⟨done', view'⟩ := load_step (e := between) running' awake' next restores fits
  refine ⟨done', ?_, ?_, ?_⟩
  · intro r
    apply UInt8.toNat_inj.1
    refine (congrFun (congrArg View.register view') r).trans ?_
    by_cases below : r ≤ x
    · exact View.registersLoaded_registersStored (s := e.machine.view) rfl memory below
    · have kept : m.view.register r = e.machine.view.register r :=
        congrFun (congrArg View.register view) r
      simp only [View.registersLoaded, if_neg below]
      exact (congrArg UInt8.toNat (beyond r (Fin.not_le.1 below))).trans kept
  · have moved : t.state.machine.index.toNat = between.machine.view.indexBehind between.dialect x :=
      congrArg View.index view'
    rwa [show between.dialect = e.dialect from dialect_step e] at moved
  · intro k
    apply UInt8.toNat_inj.1
    refine (congrFun (congrArg View.memory view') k).trans ((congrFun memory k).trans ?_)
    rw [View.registersStored]
    exact (apply_ite UInt8.toNat _ _ _).symm

/-- An engine about to store three registers at the end of memory, in a dialect in which a transfer
moves the index. -/
def saving : Engine :=
  .start { Machine.start ((((Memory.blank.set 0x200 0xF2).set 0x201 0x55).set 0x202 0xF2).set
      0x203 0x65) with
    registers := #v[7, 8, 9, 10, 0, 0, 0, 0, 0, 0, 0, 0, 0, 0, 0, 0]
    index := 0xFFD }
    { transferMovesIndex := true } .strict .off (.cycle [])

/-- A program that saves three registers at the end of memory and gets them back. -/
theorem load_after_store_end : saving.fault = none ∧ saving.machine.keyWait = none ∧
    saving.machine.view.Fetches 0x200 0xF255 ∧
    (saving.machine.view.goTo 0x202).Fetches 0x202 0xF265 ∧
    saving.step.state.machine.index.toNat = 0 ∧
    ∃ registers : Vector UInt8 16, registers.get 0 = 1 ∧
      let t := (saving.step.state.withRegisters registers saving.machine.index).step
      t.state.machine.get 0 = 7 ∧ t.state.machine.get 3 = 10 ∧ t.state.machine.index.toNat = 0 ∧
        t.state.machine.memory.byteAt 0xFFF = 9 := by
  have here : saving.machine.view.Fetches 0x200 0xF255 := by
    refine ⟨rfl, by decide, ?_⟩
    simp [saving, start, Machine.start, Machine.view, Memory.byteAt_set, Memory.size]
  have there : (saving.machine.view.goTo 0x202).Fetches 0x202 0xF265 := by
    refine ⟨rfl, by decide, ?_⟩
    simp [saving, start, Machine.start, Machine.view, View.goTo, Memory.byteAt_set, Memory.size]
  have saves : (Instruction.store 2).Describes 0xF255 := Instruction.describes_decode 0xF255
  have restores : (Instruction.load 2).Describes 0xF265 := Instruction.describes_decode 0xF265
  obtain ⟨-, index, after⟩ := load_after_store (e := saving) rfl rfl here saves there restores
    (by decide) (by decide) (.inr (by decide))
  obtain ⟨registers, one, others⟩ : ∃ registers : Vector UInt8 16, registers.get 0 = 1 ∧
      ∀ r : Register, 2 < r → registers.get r = saving.step.state.machine.registers.get r := by
    refine ⟨saving.step.state.machine.registers.set 0 1, Vector.getElem_set_self _, ?_⟩
    intro r above
    exact Vector.getElem_set_ne _ _ (Nat.ne_of_lt (Nat.zero_lt_of_lt above))
  obtain ⟨-, get, index', bytes⟩ := after registers others
  have moved : (if saving.dialect.transferMovesIndex then
      (saving.machine.index.toNat + (2 : Register).val + 1) % 0x1000
    else saving.machine.index.toNat) = 0 := by decide
  refine ⟨rfl, rfl, here, there, index.trans moved, registers, one, (get 0).trans rfl,
    (get 3).trans rfl, index'.trans moved, (bytes 0xFFF).trans ?_⟩
  decide

end Engine

end Chip8
