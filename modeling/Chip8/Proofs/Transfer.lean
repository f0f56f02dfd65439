import Chip8.Machine.Execute
import Chip8.Proofs.Memory
import Chip8.Proofs.Screen
/-!
# Transfers at the index

The instructions that read or write several bytes from the index on. A transfer that would run past
the end of memory fails at the first address beyond it (`overrun`), a store to the protected region
fails at once (`storeFault`); what went before a failure stays. `drawSprite_nat`, `writeBytes_index`
and `loadRegisters_index` say what each transfer leaves behind and how it ends.
-/

namespace Chip8

namespace Machine

/-- A register that was set has the value, and the others have theirs. -/
lemma get_set (m : Machine) (x y : Register) (v : UInt8) :
    (m.set x v).get y = if y = x then v else m.get y := by
  change (m.registers.set x v)[y.val] = if y = x then v else m.registers[y.val]
  simp only [Vector.getElem_set, Fin.val_inj, eq_comm (a := x)]

/-- What ends a transfer of some bytes at the index before its last byte. -/
def overrun (m : Machine) (count : Nat) : Option MachineFault :=
  if 0 < count ∧ Memory.size < m.index.toNat + count then
    some (.addressOutOfRange (.address (max m.index.toNat Memory.size : Nat)))
  else none

/-- What ends the storing of some bytes, of which one comes first, at the index. -/
def storeFault (m : Machine) (count : Nat) (first : UInt8) : Option MachineFault :=
  if m.memory.reservedProtected = true ∧ m.index.toNat < Memory.programStart then
    some (.protectedWrite m.index.toNat first)
  else m.overrun count

/-- Bytes do not run over the end of memory if there are none or they fit. -/
lemma overrun_eq_none_iff {m : Machine} {count : Nat} :
    m.overrun count = none ↔ count = 0 ∨ m.index.toNat + count ≤ Memory.size := by
  rw [overrun, ite_eq_right_iff]
  simp only [reduceCtorEq, imp_false]
  omega

/-- Bytes can be stored if they do not touch the font and fit. -/
lemma storeFault_eq_none_iff {m : Machine} {count : Nat} {first : UInt8} :
    m.storeFault count first = none ↔
      m.memory.IsFree m.index.toNat ∧ (count = 0 ∨ m.index.toNat + count ≤ Memory.size) := by
  rw [storeFault]
  split
  case isTrue held =>
    simp only [reduceCtorEq, false_iff, not_and]
    intro free
    have := free held.1
    omega
  case isFalse held =>
    have free : m.memory.IsFree m.index.toNat := by
      intro p
      by_contra low
      exact held ⟨p, Nat.lt_of_not_le low⟩
    rw [overrun_eq_none_iff]
    exact ⟨fun h => ⟨free, h⟩, fun h => h.2⟩

/-- The bytes of a sprite at the index. -/
def sprite (m : Machine) (rows : Nat) : Sprite :=
  (List.range rows).map fun k => m.memory.byteAt (m.index.toNat + k)

/-- Bytes are read as far as memory goes. -/
lemma readBytes_nat (m : Machine) (a n : Nat) :
    m.readBytes a n =
      if 0 < n ∧ Memory.size < a + n then
        .error (.addressOutOfRange (.address (max a Memory.size : Nat)))
      else .ok ((List.range n).map fun k => m.memory.byteAt (a + k)) := by
  induction n generalizing a with
  | zero => rfl
  | succ n ih =>
    rw [readBytes]
    by_cases inside : a < Memory.size
    · rw [Memory.read_nat inside, show (a : Int) + 1 = ((a + 1 : Nat) : Int) by omega, ih]
      by_cases beyond : 0 < n ∧ Memory.size < a + 1 + n
      · rw [if_pos beyond, if_pos (by omega), Nat.max_eq_right (by omega),
          Nat.max_eq_right (by omega)]
        rfl
      · rw [if_neg beyond, if_neg (by omega), List.range_succ_eq_map, List.map_cons, List.map_map]
        simp only [bind, Except.bind, pure, Except.pure, Nat.add_zero, Function.comp_def,
          Nat.succ_eq_add_one, Nat.add_assoc, Nat.add_comm 1]
    · rw [Memory.read_outside (by omega), if_pos (by omega), Nat.max_eq_left (by omega)]
      rfl

/-- A sprite from an origin that is not negative is drawn as a mask, if all of its bytes are in
memory, and else nothing is drawn. -/
lemma drawSprite_nat (m : Machine) (x y rows : Nat) :
    match m.overrun rows with
    | some fault => m.drawSprite x y rows = (m, .error (.machine fault))
    | none => ∃ screen, m.drawSprite x y rows =
          ({ m with screen := screen },
            .ok ((Sprite.targets x y (m.sprite rows)).any m.screen.lit)) ∧
        ∀ q, screen.lit q =
          (m.screen.lit q ^^ decide (q ∈ Sprite.targets x y (m.sprite rows))) := by
  simp only [drawSprite, drawBytes, readBytes_nat, overrun]
  by_cases beyond : 0 < rows ∧ Memory.size < m.index.toNat + rows
  · simp only [if_pos beyond]
  · simp only [if_neg beyond]
    obtain ⟨screen, run, view⟩ := m.screen.draw_nat x y (m.sprite rows)
    refine ⟨screen, ?_, view⟩
    rw [show ((List.range rows).map fun k => m.memory.byteAt (m.index.toNat + k)) = m.sprite rows
      from rfl, run]

/-- What storing bytes at the index leaves behind, and what ended it before the last byte. -/
lemma writeBytes_index (m : Machine) (b : UInt8) (rest : List UInt8) :
    ∃ memory, m.writeBytes m.index.toNat (b :: rest) =
        ({ m with memory := memory }, m.storeFault (rest.length + 1) b) ∧
      memory.reservedProtected = m.memory.reservedProtected ∧
      ∀ k, memory.byteAt k =
        if m.memory.IsFree m.index.toNat ∧ m.index.toNat ≤ k ∧
            k < m.index.toNat + (rest.length + 1) ∧ k < Memory.size then
          (b :: rest).getD (k - m.index.toNat) 0
        else m.memory.byteAt k := by
  by_cases free : m.memory.IsFree m.index.toNat
  · refine ⟨(m.memory.putAll m.index.toNat (b :: rest)).1, ?_,
      Memory.reservedProtected_putAll .., ?_⟩
    · have held : ¬ (m.memory.reservedProtected = true ∧ m.index.toNat < Memory.programStart) := by
        rintro ⟨p, low⟩
        have := free p
        omega
      rw [storeFault, if_neg held, writeBytes, overrun]
      simp only
      rw [Memory.fault_putAll free, List.length_cons]
      simp only [reduceCtorEq, false_or]
      by_cases fits : m.index.toNat + (rest.length + 1) ≤ Memory.size
      · rw [if_pos fits, if_neg (by omega)]
      · rw [if_neg fits, if_pos (by omega)]
    · intro k
      rw [Memory.byteAt_putAll free, List.length_cons]
      simp only [free, true_and]
  · have held : m.memory.reservedProtected = true ∧ m.index.toNat < Memory.programStart := by
      simp only [Memory.IsFree, Classical.not_imp, Nat.not_le] at free
      exact free
    refine ⟨m.memory, ?_, rfl, ?_⟩
    · rw [storeFault, if_pos held, writeBytes, Memory.putAll_protected held.1 held.2]
    · intro k
      rw [if_neg (by tauto)]

end Machine

namespace Instruction

/-- The registers up to one are those whose number is not greater. -/
lemma mem_upTo : ∀ x r : Register, r ∈ upTo x ↔ r ≤ x := by decide

/-- The registers are in the order of their numbers. -/
lemma idxOf_upTo : ∀ x r : Register, r ≤ x → (upTo x).idxOf r = r.val := by decide

/-- No register occurs twice. -/
lemma nodup_upTo : ∀ x : Register, (upTo x).Nodup := by decide

/-- There is one register more than the number of the last. -/
lemma length_upTo : ∀ x : Register, (upTo x).length = x.val + 1 := by decide

/-- Loading registers goes as far as memory does. -/
lemma loadRegisters_nat (m : Machine) (a : Nat) {rs : List Register} (nodup : rs.Nodup) :
    ∃ registers, loadRegisters m a rs = ({ m with registers := registers },
        if 0 < rs.length ∧ Memory.size < a + rs.length then
          some (.addressOutOfRange (.address (max a Memory.size : Nat)))
        else none) ∧
      ∀ r, ({ m with registers := registers } : Machine).get r =
        if rs.idxOf r < rs.length ∧ a + rs.idxOf r < Memory.size then
          m.memory.byteAt (a + rs.idxOf r)
        else m.get r := by
  -- A register that was loaded is not loaded again, so what the first load put there stays.
  induction rs generalizing m a with
  | nil => exact ⟨m.registers, rfl, fun r => by simp⟩
  | cons x rest ih =>
    obtain ⟨fresh, nodup'⟩ := List.nodup_cons.1 nodup
    rw [loadRegisters, List.length_cons]
    by_cases inside : a < Memory.size
    · obtain ⟨registers, run, view⟩ := ih (m.set x (m.memory.byteAt a)) (a + 1) nodup'
      refine ⟨registers, ?_, ?_⟩
      · simp only [Memory.read_nat inside]
        rw [show (a : Int) + 1 = ((a + 1 : Nat) : Int) by omega, run]
        refine Prod.ext rfl ?_
        by_cases beyond : Memory.size < a + (rest.length + 1)
        · rw [if_pos (by omega), if_pos (by omega), Nat.max_eq_right (by omega),
            Nat.max_eq_right (by omega)]
        · rw [if_neg (by omega), if_neg (by omega)]
      · intro r
        have := view r
        simp only [Machine.get_set] at this
        rw [show ({ m with registers := registers } : Machine).get r =
          ({ m.set x (m.memory.byteAt a) with registers := registers } : Machine).get r from rfl,
          this]
        by_cases same : r = x
        · subst same
          simp [fresh, inside]
        · simp [same, Ne.symm same, List.idxOf_cons_ne, Nat.add_assoc, Nat.add_comm 1, Machine.set]
    · refine ⟨m.registers, ?_, ?_⟩
      · rw [Memory.read_outside (by omega)]
        simp only
        rw [if_pos (by omega), Nat.max_eq_left (by omega)]
      · intro r
        rw [if_neg (by omega)]

/-- What loading the registers up to `x` from the index on leaves behind, and what ended it before
the last register. -/
lemma loadRegisters_index (m : Machine) (x : Register) :
    ∃ registers, loadRegisters m m.index.toNat (upTo x) =
        ({ m with registers := registers }, m.overrun (x.val + 1)) ∧
      ∀ r, ({ m with registers := registers } : Machine).get r =
        if r ≤ x ∧ m.index.toNat + r.val < Memory.size then m.memory.byteAt (m.index.toNat + r.val)
        else m.get r := by
  obtain ⟨registers, run, view⟩ := loadRegisters_nat m m.index.toNat (nodup_upTo x)
  rw [length_upTo] at run
  refine ⟨registers, run, ?_⟩
  intro r
  simp only [view, List.idxOf_lt_length_iff, mem_upTo]
  by_cases h : r ≤ x
  · rw [idxOf_upTo x r h]
  · simp [h]

end Instruction

end Chip8
