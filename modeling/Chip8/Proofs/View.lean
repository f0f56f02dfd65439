import Chip8.Proofs.Transfer
/-!
# The machine in numbers

`Machine.view` shows a machine as the instruction table speaks about it: bytes and words as natural
numbers, the memory and the screen as functions of address and position. Nothing is lost
(`view_inj`). The operations that instructions are made of are operations on views.
-/

namespace Chip8

/-- The components of a machine in numbers. -/
structure View where
  register : Register → Nat
  index : Nat
  pc : Place
  /-- The return addresses, the last call first. -/
  stack : List Nat
  delay : Nat
  sound : Nat
  memory : Nat → Nat
  readOnly : Bool
  pixel : (column row : Nat) → Bool
  down : Key → Bool
  /-- Whether a wait for a key is armed. -/
  armed : Bool
  /-- The key that an armed wait has caught. -/
  caught : Option Key
  /-- The register that a wait for a key will fill. -/
  target : Option Register

namespace View

/-- Gives a register a value. -/
def put (s : View) (x : Register) (value : Nat) : View :=
  { s with register := fun r => if r = x then value else s.register r }

/-- Goes on at an address. -/
def goTo (s : View) (target : Nat) : View := { s with pc := .address target }

/-- The word at the program counter, the byte there above the byte behind it. -/
def Fetches (s : View) (a : Nat) (word : UInt16) : Prop :=
  s.pc = .address a ∧ a + 1 < 4096 ∧ word.toNat = 0x100 * s.memory a + s.memory (a + 1)

/-- Only one word can be fetched. -/
lemma Fetches.unique {s : View} {a a' : Nat} {word word' : UInt16} (h : s.Fetches a word)
    (h' : s.Fetches a' word') : a = a' ∧ word = word' := by
  have at_ := h.1.symm.trans h'.1
  simp only [Place.address.injEq, Int.natCast_inj] at at_
  subst at_
  exact ⟨rfl, UInt16.toNat_inj.1 (h.2.2.trans h'.2.2.symm)⟩

end View

namespace Machine

/-- The components of a machine in numbers. -/
def view (m : Machine) : View where
  register x := (m.get x).toNat
  index := m.index.toNat
  pc := m.pc
  stack := m.stack.map UInt16.toNat
  delay := m.delay.toNat
  sound := m.sound.toNat
  memory a := (m.memory.byteAt a).toNat
  readOnly := m.memory.reservedProtected
  pixel column row := m.screen.lit (Screen.position column row)
  down := m.keypad.holds
  armed := m.keypad.waiting
  caught := m.keypad.latched
  target := m.keyWait

/-- Screens with the same pixels on the screen have the same pixels. -/
lemma lit_of_pixels {s s' : Screen}
    (h : ∀ column row, s.lit (Screen.position column row) = s'.lit (Screen.position column row))
    (p : Int × Int) : s.lit p = s'.lit p := by
  by_cases on : Screen.Has p
  · obtain ⟨left, -, top, -⟩ := on
    have e : p = Screen.position p.1.toNat p.2.toNat :=
      Prod.ext (Int.toNat_of_nonneg left).symm (Int.toNat_of_nonneg top).symm
    rw [e]
    exact h _ _
  · simp only [Screen.lit, Screen.index_of_not_has on]

/-- Machines that look alike are equal. -/
lemma view_inj {m m' : Machine} (e : m.view = m'.view) : m = m' := by
  have memory : m.memory = m'.memory :=
    Memory.ext_byteAt (fun a => UInt8.toNat_inj.1 (congrFun (congrArg View.memory e) a))
      (congrArg View.readOnly e)
  have screen : m.screen = m'.screen :=
    Screen.ext_lit (lit_of_pixels fun c r => congrFun (congrFun (congrArg View.pixel e) c) r)
  have keypad : m.keypad = m'.keypad := by
    have down : m.keypad.pressed = m'.keypad.pressed := by
      apply Vector.ext
      intro i hi
      exact congrFun (congrArg View.down e) ⟨i, hi⟩
    have armed : m.keypad.waiting = m'.keypad.waiting := congrArg View.armed e
    have caught : m.keypad.latched = m'.keypad.latched := congrArg View.caught e
    generalize m.keypad = k at *
    generalize m'.keypad = k' at *
    cases k
    cases k'
    congr
  have registers : m.registers = m'.registers := by
    apply Vector.ext
    intro i hi
    exact UInt8.toNat_inj.1 (congrFun (congrArg View.register e) ⟨i, hi⟩)
  have index : m.index = m'.index := UInt16.toNat_inj.1 (congrArg View.index e)
  have pc : m.pc = m'.pc := congrArg View.pc e
  have stack : m.stack = m'.stack :=
    List.map_injective_iff.2 (fun _ _ => UInt16.toNat_inj.1) (congrArg View.stack e)
  have delay : m.delay = m'.delay := UInt8.toNat_inj.1 (congrArg View.delay e)
  have sound : m.sound = m'.sound := UInt8.toNat_inj.1 (congrArg View.sound e)
  have keyWait : m.keyWait = m'.keyWait := congrArg View.target e
  cases m
  cases m'
  congr

/-- Setting a register puts its value into the view. -/
lemma view_set (m : Machine) (x : Register) (v : UInt8) :
    (m.set x v).view = m.view.put x v.toNat := by
  have e : (m.set x v).view.register = (m.view.put x v.toNat).register := by
    funext r
    simp only [view, View.put, get_set]
    split <;> rfl
  rw [show (m.set x v).view = { m.view with register := (m.set x v).view.register } from rfl, e]
  rfl

/-- Setting the index changes it in the view. -/
lemma view_setIndex (m : Machine) {v : Nat} (h : v < 65536) :
    (m.setIndex v).view = { m.view with index := v } := by
  have e : (m.setIndex v).index.toNat = v := by
    simp only [setIndex, UInt16.ofInt]
    simp
    omega
  rw [show (m.setIndex v).view = { m.view with index := (m.setIndex v).index.toNat } from rfl, e]

/-- Going on changes the program counter in the view. -/
lemma view_skip {m : Machine} {a : Nat} (at_ : m.pc = .address a) (h : a + 2 < 65536) :
    m.skip.view = m.view.goTo (a + 2) := by
  have e : m.skip.pc = .address (a + 2 : Nat) :=
    (congrArg Place.next at_).trans (Place.next_address h)
  rw [show m.skip.view = { m.view with pc := m.skip.pc } from rfl, e]
  rfl

/-- A word can be fetched exactly from an address in front of another one. -/
lemma wordAt_pc_eq_ok_iff {m : Machine} {word : UInt16} :
    m.wordAt m.pc = .ok word ↔ ∃ a, m.view.Fetches a word := by
  constructor
  · intro fetched
    cases at_ : m.pc with
    | stray n =>
      rw [at_] at fetched
      cases fetched
    | address a =>
      rw [at_] at fetched
      have fetched : m.memory.word a = .ok word := fetched
      by_cases outside : a < 0 ∨ Memory.size ≤ a + 1
      · rw [Memory.word_outside outside] at fetched
        cases fetched
      · obtain ⟨a, rfl⟩ := Int.eq_ofNat_of_zero_le (show 0 ≤ a by omega)
        exact ⟨a, at_, Memory.word_eq_ok_iff.1 fetched⟩
  · rintro ⟨a, at_, word⟩
    rw [show m.pc = .address a from at_]
    exact Memory.word_eq_ok_iff.2 word

end Machine

end Chip8
