import Chip8.Proofs.Transfer
/-!
# How an instruction ends

`obstacle` says which instructions cannot be completed in which machines, and why. An instruction
without an obstacle is completed (`abort_of_obstacle_none`). One with an obstacle ends because of
it, never by a misuse of the machine, and what is left behind is the machine as it was, but for the
bytes that a store or a load has transferred before (`execute_of_obstacle`).
-/

namespace Chip8.Instruction

/-- Why an instruction cannot be completed, if so. -/
def obstacle (policy : UnknownPolicy) (m : Machine) : Instruction → Option FaultCause
  | ret => if m.stack = [] then some (.machine .stackUnderflow) else none
  | call _ =>
    if Machine.stackLimit ≤ m.stack.length then some (.machine .stackOverflow) else none
  | draw _ _ rows => (m.overrun rows.val).map .machine
  | storeDecimal x => (m.storeFault 3 (m.get x / 100)).map .machine
  | store x => (m.storeFault (x.val + 1) (m.get (.ofNat 0))).map .machine
  | load x => (m.overrun (x.val + 1)).map .machine
  | unknown _ =>
    match policy with
    | .strict => some .unknownOpcode
    | .lenient => none
  | _ => none

/-- The byte that an instruction is to store at an address, if any. -/
def stored? (m : Machine) (k : Nat) : Instruction → Option UInt8
  | storeDecimal x =>
    if m.index.toNat ≤ k then (decimalDigits (m.get x))[k - m.index.toNat]? else none
  | store x =>
    if m.index.toNat ≤ k ∧ k ≤ m.index.toNat + x.val then
      some (m.get (.ofNat (k - m.index.toNat)))
    else none
  | _ => none

/-- The byte that an instruction is to load into a register, if any. -/
def loaded? (m : Machine) (r : Register) : Instruction → Option UInt8
  | load x => if r ≤ x then some (m.memory.byteAt (m.index.toNat + r.val)) else none
  | _ => none

/-- The registers that are stored, each at its place. -/
lemma getD_registersUpTo (m : Machine) (x : Register) {k : Nat} (h : k ≤ x.val) :
    (registersUpTo m x).getD k 0 = m.get (.ofNat k) := by
  have inside : k < 16 := by omega
  have e : Digit.ofNat k = (⟨k, inside⟩ : Register) := Fin.ext (Nat.mod_eq_of_lt inside)
  rw [e, List.getD_eq_getElem?_getD, registersUpTo, List.getElem?_take_of_lt (by omega)]
  simp [Machine.get, Vector.get, inside]

/-- The registers that are stored start with the first one. -/
lemma registersUpTo_cons (m : Machine) (x : Register) :
    ∃ rest, registersUpTo m x = m.get (.ofNat 0) :: rest ∧ rest.length = x.val := by
  have length : (registersUpTo m x).length = x.val + 1 := by
    simp only [registersUpTo, List.length_take, Vector.length_toList]
    omega
  have first := getD_registersUpTo m x (Nat.zero_le _)
  cases h : registersUpTo m x with
  | nil => rw [h] at length; cases length
  | cons b rest =>
    rw [h] at length first
    exact ⟨rest, by rw [← first]; rfl, Nat.succ.inj length⟩

/-- Storing the digits of a register ends well, or with the fault of three bytes. -/
lemma writeBytes_decimalDigits (m : Machine) (x : Register) :
    ∃ memory, m.writeBytes m.index.toNat (decimalDigits (m.get x)) =
        ({ m with memory := memory }, m.storeFault 3 (m.get x / 100)) ∧
      memory.reservedProtected = m.memory.reservedProtected ∧
      ∀ k, memory.byteAt k =
        if m.memory.IsFree m.index.toNat ∧ k < Memory.size then
          ((storeDecimal x).stored? m k).getD (m.memory.byteAt k)
        else m.memory.byteAt k := by
  obtain ⟨memory, run, protection, view⟩ :=
    m.writeBytes_index (m.get x / 100) [m.get x / 10 % 10, m.get x % 10]
  refine ⟨memory, run, protection, ?_⟩
  intro k
  rw [view]
  simp only [stored?, decimalDigits, List.length_cons, List.length_nil, List.getD_eq_getElem?_getD]
  grind

/-- Storing registers ends well, or with the fault of that many bytes. -/
lemma writeBytes_registersUpTo (m : Machine) (x : Register) :
    ∃ memory, m.writeBytes m.index.toNat (registersUpTo m x) =
        ({ m with memory := memory }, m.storeFault (x.val + 1) (m.get (.ofNat 0))) ∧
      memory.reservedProtected = m.memory.reservedProtected ∧
      ∀ k, memory.byteAt k =
        if m.memory.IsFree m.index.toNat ∧ k < Memory.size then
          ((store x).stored? m k).getD (m.memory.byteAt k)
        else m.memory.byteAt k := by
  obtain ⟨rest, e, length⟩ := registersUpTo_cons m x
  obtain ⟨memory, run, protection, view⟩ := m.writeBytes_index (m.get (.ofNat 0)) rest
  rw [← e, length] at run
  refine ⟨memory, run, protection, ?_⟩
  intro k
  rw [view, length, ← e]
  simp only [stored?]
  by_cases reached : m.index.toNat ≤ k ∧ k ≤ m.index.toNat + x.val
  · rw [getD_registersUpTo m x (by omega), if_pos reached, Option.getD_some]
    congr 1
    simp only [eq_iff_iff]
    constructor
    · rintro ⟨free, -, -, inside⟩
      exact ⟨free, inside⟩
    · rintro ⟨free, inside⟩
      exact ⟨free, reached.1, by omega, inside⟩
  · rw [if_neg (by omega), if_neg reached, Option.getD_none, ite_self]

/-- An instruction that is completed has stored all of its bytes. -/
lemma stored_of_obstacle_none {ins : Instruction} {policy : UnknownPolicy} {m : Machine}
    (clear : ins.obstacle policy m = none) (k : Nat) :
    (if m.memory.IsFree m.index.toNat ∧ k < Memory.size then
      (ins.stored? m k).getD (m.memory.byteAt k)
    else m.memory.byteAt k) = (ins.stored? m k).getD (m.memory.byteAt k) := by
  cases ins with
  | storeDecimal x =>
    obtain ⟨free, fits⟩ := Machine.storeFault_eq_none_iff.1 (Option.map_eq_none_iff.1 clear)
    simp only [free, true_and, stored?, decimalDigits]
    grind
  | store x =>
    obtain ⟨free, fits⟩ := Machine.storeFault_eq_none_iff.1 (Option.map_eq_none_iff.1 clear)
    simp only [free, true_and, stored?]
    grind
  | _ => exact ite_self _

/-- What is left of a machine when an instruction ends at its obstacle: a store has stored what lies
below the end of memory, a load has loaded it, and all else is as before. -/
structure Remnant (ins : Instruction) (m m' : Machine) : Prop where
  rest : m' = { m with memory := m'.memory, registers := m'.registers }
  protection : m'.memory.reservedProtected = m.memory.reservedProtected
  bytes (k : Nat) : m'.memory.byteAt k =
    if m.memory.IsFree m.index.toNat ∧ k < Memory.size then
      (ins.stored? m k).getD (m.memory.byteAt k)
    else m.memory.byteAt k
  values (x : Register) : m'.get x =
    if m.index.toNat + x.val < Memory.size then (ins.loaded? m x).getD (m.get x) else m.get x

/-- An instruction that stores and loads nothing leaves the machine as it is when it fails. -/
lemma Remnant.refl {ins : Instruction} {m : Machine} (stored : ∀ k, ins.stored? m k = none)
    (loaded : ∀ x, ins.loaded? m x = none) : Remnant ins m m where
  rest := rfl
  protection := rfl
  bytes k := by rw [stored, Option.getD_none, ite_self]
  values x := by rw [loaded, Option.getD_none, ite_self]

/-- An instruction with an obstacle ends because of it. The random source stays, and of the machine
everything but the bytes that were stored and loaded before the obstacle was met. -/
lemma execute_of_obstacle {ins : Instruction} {d : Dialect} {policy : UnknownPolicy} {pc : Place}
    {m : Machine} {r : RandomSource} {cause : FaultCause}
    (h : ins.obstacle policy m = some cause) :
    ∃ m', ins.execute d policy pc m r = ⟨m', r, some (.fault cause)⟩ ∧ Remnant ins m m' := by
  cases ins with
  | ret =>
    simp only [obstacle, Option.ite_none_right_eq_some, Option.some.injEq] at h
    obtain ⟨empty, rfl⟩ := h
    refine ⟨m, ?_, .refl (fun _ => rfl) (fun _ => rfl)⟩
    simp only [execute, Machine.pop, empty]
  | call target =>
    simp only [obstacle, Option.ite_none_right_eq_some, Option.some.injEq] at h
    obtain ⟨full, rfl⟩ := h
    refine ⟨m, ?_, .refl (fun _ => rfl) (fun _ => rfl)⟩
    simp only [execute, Machine.push, if_neg (Nat.not_lt.2 full)]
  | draw x y rows =>
    obtain ⟨fault, exceeds, rfl⟩ := Option.map_eq_some_iff.1 h
    have run := m.drawSprite_nat (m.get x).toNat (m.get y).toNat rows.val
    rw [exceeds] at run
    refine ⟨m, ?_, .refl (fun _ => rfl) (fun _ => rfl)⟩
    simp only [execute, run, Abort.ofFailure]
  | storeDecimal x =>
    obtain ⟨fault, held, rfl⟩ := Option.map_eq_some_iff.1 h
    obtain ⟨memory, run, protection, bytes⟩ := writeBytes_decimalDigits m x
    rw [held] at run
    refine ⟨{ m with memory := memory }, ?_, rfl, protection, bytes, fun x => (ite_self _).symm⟩
    simp only [execute, run]
  | store x =>
    obtain ⟨fault, held, rfl⟩ := Option.map_eq_some_iff.1 h
    obtain ⟨memory, run, protection, bytes⟩ := writeBytes_registersUpTo m x
    rw [held] at run
    refine ⟨{ m with memory := memory }, ?_, rfl, protection, bytes, fun x => (ite_self _).symm⟩
    simp only [execute, run]
  | load x =>
    obtain ⟨fault, exceeds, rfl⟩ := Option.map_eq_some_iff.1 h
    obtain ⟨registers, run, values⟩ := loadRegisters_index m x
    rw [exceeds] at run
    refine ⟨{ m with registers := registers }, ?_, rfl, rfl, fun k => (ite_self _).symm, ?_⟩
    · simp only [execute, run]
    · intro r
      rw [values]
      simp only [loaded?]
      by_cases h : r ≤ x <;> simp [h]
  | unknown word =>
    cases policy with
    | strict =>
      cases h
      exact ⟨m, rfl, .refl (fun _ => rfl) (fun _ => rfl)⟩
    | lenient => cases h
  | _ => cases h

/-- An instruction without an obstacle is completed. -/
lemma abort_of_obstacle_none {ins : Instruction} {d : Dialect} {policy : UnknownPolicy} {pc : Place}
    {m : Machine} {r : RandomSource} (h : ins.obstacle policy m = none) :
    (ins.execute d policy pc m r).abort = none := by
  cases ins with
  | ret =>
    cases top : m.stack with
    | nil => simp [obstacle, top] at h
    | cons => simp only [execute, Machine.pop, top]
  | call target =>
    have room : m.stack.length < Machine.stackLimit := by
      by_contra full
      rw [obstacle, if_pos (Nat.le_of_not_lt full)] at h
      cases h
    simp only [execute, Machine.push, if_pos room]
  | draw x y rows =>
    have run := m.drawSprite_nat (m.get x).toNat (m.get y).toNat rows.val
    rw [Option.map_eq_none_iff.1 h] at run
    obtain ⟨screen, run, -⟩ := run
    simp only [execute, run]
  | storeDecimal x =>
    obtain ⟨memory, run, -⟩ := writeBytes_decimalDigits m x
    rw [Option.map_eq_none_iff.1 h] at run
    simp only [execute, run]
  | store x =>
    obtain ⟨memory, run, -⟩ := writeBytes_registersUpTo m x
    rw [Option.map_eq_none_iff.1 h] at run
    simp only [execute, run]
  | load x =>
    obtain ⟨registers, run, -⟩ := loadRegisters_index m x
    rw [Option.map_eq_none_iff.1 h] at run
    simp only [execute, run]
  | unknown word =>
    cases policy with
    | strict => cases h
    | lenient => rfl
  | _ => rfl

end Chip8.Instruction
