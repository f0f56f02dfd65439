import Chip8.Proofs.Encoding
import Chip8.Proofs.Step
import Chip8.Proofs.View
/-!
# The instruction table

The semantics of the instruction set as a table: a column of patterns (`Instruction.code`) and a
column of effects (`View.effect`), the latter in numbers, each component being computed from the
components before the instruction. Drawing is described as a mask (`View.Covers`) and transfers as
functions of the address.

`tabled_iff_step` is the main statement. Whenever an engine that neither stopped nor waits completes
a step, the word at its program counter is described by one row of the table, and the engine goes on
with the machine of that row, one more instruction executed, and a random byte drawn if the row says
so. Since a view determines its machine, nothing else about the machine is left open.
-/

namespace Chip8

namespace View

/-- Goes on behind the instruction at `a`, or behind the one that follows it. -/
def skipIf (s : View) (a : Nat) (condition : Prop) [Decidable condition] : View :=
  s.goTo (if condition then a + 4 else a + 2)

/-- Gives a register the result of a logical operation, which some dialects follow by clearing the
flag register. -/
def putLogic (s : View) (d : Dialect) (x : Register) (value : Nat) : View :=
  if d.logicClearsFlag then (s.put x value).put Instruction.flag 0 else s.put x value

/-- A logical result changes registers only. -/
lemma putLogic_eq (s : View) (d : Dialect) (x : Register) (value : Nat) :
    s.putLogic d x value = { s with register := (s.putLogic d x value).register } := by
  rw [putLogic]
  split <;> rfl

/-- Gives a register a result and then the flag register a flag. -/
def putFlagged (s : View) (x : Register) (value flag : Nat) : View :=
  (s.put x value).put Instruction.flag flag

/-- Leaves the index behind the transfer of the registers up to `x`, where the dialect has it so. -/
def moved (s : View) (d : Dialect) (x : Register) : View :=
  if d.transferMovesIndex then { s with index := (s.index + x + 1) % 0x1000 } else s

/-- A transfer of registers may change the index and nothing else. -/
lemma moved_eq (s : View) (d : Dialect) (x : Register) :
    s.moved d x = { s with index := (s.moved d x).index } := by
  rw [moved]
  split <;> rfl

/-- Whether a sprite of some rows at the index, drawn at `x` and `y`, covers a pixel. The origin is
wrapped onto the screen, columns wrap around, and rows below the screen are left out. -/
def Covers (s : View) (x y rows column row : Nat) : Prop :=
  ∃ r < rows, ∃ c < 8, (s.memory (s.index + r)).testBit (7 - c) = true ∧
    column = (x % 64 + c) % 64 ∧ row = y % 32 + r ∧ row < 32

/-- It can be decided whether a sprite covers a position. -/
instance (s : View) (x y rows column row : Nat) : Decidable (s.Covers x y rows column row) :=
  inferInstanceAs (Decidable (∃ r, r < rows ∧ ∃ c, c < 8 ∧ _))

/-- Whether a sprite covers a pixel that is on. -/
def Collides (s : View) (x y rows : Nat) : Prop :=
  ∃ column < 64, ∃ row < 32, s.Covers x y rows column row ∧ s.pixel column row = true

/-- It can be decided whether a sprite collides with a pixel that is on. -/
instance (s : View) (x y rows : Nat) : Decidable (s.Collides x y rows) :=
  inferInstanceAs (Decidable (∃ column, column < 64 ∧ ∃ row, row < 32 ∧ _))

/-- Combines the screen with a sprite, and flags a collision. -/
def drawn (s : View) (x y rows : Nat) : View :=
  { s with
    pixel := fun column row =>
      s.pixel column row ^^ decide (s.Covers x y rows column row) }.put Instruction.flag
    (if s.Collides x y rows then 1 else 0)

/-- The memory after the decimal digits of a register were stored from the index on. -/
def decimalStored (s : View) (x : Register) (k : Nat) : Nat :=
  if k = s.index then s.register x / 100
  else if k = s.index + 1 then s.register x / 10 % 10
  else if k = s.index + 2 then s.register x % 10
  else s.memory k

/-- The memory after the registers up to `x` were stored from the index on. -/
def registersStored (s : View) (x : Register) (k : Nat) : Nat :=
  if s.index ≤ k ∧ k ≤ s.index + x then s.register (.ofNat (k - s.index)) else s.memory k

/-- The registers after those up to `x` were loaded from the index on. -/
def registersLoaded (s : View) (x r : Register) : Nat :=
  if r ≤ x then s.memory (s.index + r) else s.register r

/-- The machine that an instruction at the address `a` makes of a machine, with the random byte that
it would draw. -/
def effect (s : View) (d : Dialect) (a byte : Nat) : Instruction → View
  | .clear => { s.goTo (a + 2) with pixel := fun _ _ => false }
  | .ret => { s.goTo (s.stack.headD 0) with stack := s.stack.tail }
  | .jump target => s.goTo target
  | .call target => { s.goTo target with stack := (a + 2) :: s.stack }
  | .skipEqualByte x value => s.skipIf a (s.register x = value.toNat)
  | .skipUnequalByte x value => s.skipIf a (s.register x ≠ value.toNat)
  | .skipEqual x y => s.skipIf a (s.register x = s.register y)
  | .skipUnequal x y => s.skipIf a (s.register x ≠ s.register y)
  | .setByte x value => (s.goTo (a + 2)).put x value.toNat
  | .addByte x value => (s.goTo (a + 2)).put x ((s.register x + value.toNat) % 0x100)
  | .copy x y => (s.goTo (a + 2)).put x (s.register y)
  | .or x y => (s.goTo (a + 2)).putLogic d x (s.register x ||| s.register y)
  | .and x y => (s.goTo (a + 2)).putLogic d x (s.register x &&& s.register y)
  | .xor x y => (s.goTo (a + 2)).putLogic d x (s.register x ^^^ s.register y)
  | .add x y =>
    (s.goTo (a + 2)).putFlagged x ((s.register x + s.register y) % 0x100)
      (if 0xFF < s.register x + s.register y then 1 else 0)
  | .sub x y =>
    (s.goTo (a + 2)).putFlagged x ((0x100 + s.register x - s.register y) % 0x100)
      (if s.register y ≤ s.register x then 1 else 0)
  | .shiftRight x y =>
    let source := if d.shiftReadsY then s.register y else s.register x
    (s.goTo (a + 2)).putFlagged x (source / 2) (source % 2)
  | .subFrom x y =>
    (s.goTo (a + 2)).putFlagged x ((0x100 + s.register y - s.register x) % 0x100)
      (if s.register x ≤ s.register y then 1 else 0)
  | .shiftLeft x y =>
    let source := if d.shiftReadsY then s.register y else s.register x
    (s.goTo (a + 2)).putFlagged x (source * 2 % 0x100) (source / 0x80)
  | .setIndex target => { s.goTo (a + 2) with index := target }
  | .jumpOffset target => s.goTo (target + s.register (.ofNat 0))
  | .random x mask => (s.goTo (a + 2)).put x (byte &&& mask.toNat)
  | .draw x y rows => (s.goTo (a + 2)).drawn (s.register x) (s.register y) rows
  | .skipKeyDown x => s.skipIf a (s.down (.ofNat (s.register x)) = true)
  | .skipKeyUp x => s.skipIf a (s.down (.ofNat (s.register x)) = false)
  | .getDelay x => (s.goTo (a + 2)).put x s.delay
  | .waitKey x => { s with target := some x, armed := true, caught := none }
  | .setDelay x => { s.goTo (a + 2) with delay := s.register x }
  | .setSound x => { s.goTo (a + 2) with sound := s.register x }
  | .addIndex x => { s.goTo (a + 2) with index := (s.index + s.register x) % 0x1000 }
  | .setGlyph x => { s.goTo (a + 2) with index := 0x050 + s.register x % 16 * 5 }
  | .storeDecimal x => { s.goTo (a + 2) with memory := s.decimalStored x }
  | .store x => { s.goTo (a + 2) with memory := s.registersStored x }.moved d x
  | .load x => { s.goTo (a + 2) with register := s.registersLoaded x }.moved d x
  | .unknown _ => s.goTo (a + 2)

end View

namespace Machine

variable {m : Machine} {a : Nat}

/-- A difference of bytes wraps around. -/
lemma toNat_sub (x y : UInt8) : (x - y).toNat = (0x100 + x.toNat - y.toNat) % 0x100 := by
  have := y.toNat_lt
  rw [UInt8.toNat_sub]
  omega

/-- The bit that a shift to the right loses is the lowest. -/
lemma flag_shiftRight (x : UInt8) : (if x % 2 = 1 then 1 else 0) = x.toNat % 2 := by
  simp only [← UInt8.toNat_inj, UInt8.toNat_mod, UInt8.reduceToNat]
  split <;> omega

/-- The bit that a shift to the left loses is the highest. -/
lemma flag_shiftLeft (x : UInt8) : (if 128 ≤ x then 1 else 0) = x.toNat / 0x80 := by
  have := x.toNat_lt
  simp only [UInt8.le_iff_toNat_le, UInt8.reduceToNat]
  split <;> omega

/-- A result with a flag, as the table has it. -/
lemma view_setWithFlag (m : Machine) (x : Register) (result : UInt8 × Bool) :
    (Instruction.setWithFlag m x result).view =
      m.view.putFlagged x result.1.toNat (if result.2 then 1 else 0) := by
  rw [Instruction.setWithFlag, view_set, view_set, View.putFlagged]
  cases result.2 <;> rfl

/-- A logical result, as the table has it. -/
lemma view_setLogic (m : Machine) (d : Dialect) (x : Register) (value : UInt8) :
    (Instruction.setLogic d m x value).view = m.view.putLogic d x value.toNat := by
  rw [Instruction.setLogic, View.putLogic]
  split
  · rw [view_set, view_set]
    rfl
  · rw [view_set]

/-- The index after a transfer, as the table has it. -/
lemma view_movedIndex (m : Machine) (d : Dialect) (x : Register) :
    (Instruction.movedIndex d m x).view = m.view.moved d x := by
  rw [Instruction.movedIndex, View.moved]
  split
  · exact view_setIndex m (v := (m.index.toNat + x.val + 1) % 4096) (by omega)
  · rfl

/-- Memory with other bytes, as the table has it. -/
lemma view_memory {memory : Memory} {cells : Nat → Nat}
    (protection : memory.reservedProtected = m.memory.reservedProtected)
    (bytes : ∀ k, (memory.byteAt k).toNat = cells k) :
    ({ m with memory := memory } : Machine).view = { m.view with memory := cells } := by
  have e : (fun k => (memory.byteAt k).toNat) = cells := funext bytes
  simp only [view, protection, e]
  rfl

/-- Registers with other values, as the table has them. -/
lemma view_registers {registers : Vector UInt8 16} {values : Register → Nat}
    (h : ∀ x, (({ m with registers := registers } : Machine).get x).toNat = values x) :
    ({ m with registers := registers } : Machine).view = { m.view with register := values } := by
  rw [← show ({ m with registers := registers } : Machine).view.register = values from funext h]
  rfl

/-- A conditional skip, the condition being stated in numbers. -/
lemma view_skipIf {p q : Prop} [Decidable p] [Decidable q] (at_ : m.pc = .address a)
    (inside : a + 2 ≤ 4096) (h : p ↔ q) :
    (if p then m.skip.skip else m.skip).view = m.view.skipIf a q := by
  have next : m.skip.pc = .address (a + 2 : Nat) := congrArg View.pc (view_skip at_ (by omega))
  by_cases c : p
  · rw [if_pos c, View.skipIf, if_pos (h.1 c), view_skip next (by omega), view_skip at_ (by omega)]
    rfl
  · rw [if_neg c, View.skipIf, if_neg (fun c' => c (h.2 c')), view_skip at_ (by omega)]

/-- The mask of a sprite is what it covers. -/
lemma mem_targets_sprite {x y rows column row : Nat} :
    Screen.position column row ∈ Sprite.targets x y (m.sprite rows) ↔
      m.view.Covers x y rows column row := by
  rw [Sprite.mem_targets]
  constructor
  · rintro ⟨r, bits, c, at_, bound, on, inside, e⟩
    obtain ⟨h, rfl⟩ := List.getElem?_eq_some_iff.1 at_
    have less : r < rows := by simpa [sprite] using h
    simp only [sprite, List.getElem_map, List.getElem_range] at on
    simp only [Screen.position, Prod.mk.injEq, Int.natCast_inj] at e
    simp only [Screen.height, Screen.width] at e inside
    exact ⟨r, less, c, bound, on, e.1, e.2, by omega⟩
  · rintro ⟨r, less, c, bound, on, rfl, rfl, inside⟩
    refine ⟨r, m.memory.byteAt (m.index.toNat + r), c, ?_, bound, on, inside, rfl⟩
    simp [sprite, less]

/-- A screen on which a sprite was drawn, as the table has it. -/
lemma view_draw {x y rows : Nat} {screen : Screen}
    (h : ∀ q, screen.lit q = (m.screen.lit q ^^ decide (q ∈ Sprite.targets x y (m.sprite rows)))) :
    (({ m with screen := screen } : Machine).set Instruction.flag
        (if (Sprite.targets x y (m.sprite rows)).any m.screen.lit then 1 else 0)).view =
      m.view.drawn x y rows := by
  have pixel : ({ m with screen := screen } : Machine).view = { m.view with
      pixel := fun column row => m.view.pixel column row ^^
        decide (m.view.Covers x y rows column row) } := by
    simp only [view]
    congr 1
    funext column row
    rw [h]
    simp only [mem_targets_sprite]
    rfl
  have collision : (Sprite.targets x y (m.sprite rows)).any m.screen.lit = true ↔
      m.view.Collides x y rows := by
    rw [List.any_eq_true]
    constructor
    · rintro ⟨p, mem, lit⟩
      obtain ⟨r, bits, c, -, -, -, inside, rfl⟩ := Sprite.mem_targets.1 mem
      refine ⟨_, ?_, _, inside, mem_targets_sprite.1 mem, lit⟩
      exact Nat.mod_lt _ (by decide)
    · rintro ⟨column, -, row, -, covers, lit⟩
      exact ⟨_, mem_targets_sprite.2 covers, lit⟩
  have flag : (if (Sprite.targets x y (m.sprite rows)).any m.screen.lit then 1 else 0 :
      UInt8).toNat = if m.view.Collides x y rows then 1 else 0 := by
    simp only [collision]
    split <;> rfl
  rw [view_set, pixel, flag]
  rfl

end Machine

namespace Instruction

variable {m : Machine} {a : Nat}

/-- The digits that are stored, as the table has them. -/
lemma toNat_stored_storeDecimal (m : Machine) (x : Register) (k : Nat) :
    (((storeDecimal x).stored? m k).getD (m.memory.byteAt k)).toNat = m.view.decimalStored x k := by
  change _ = if k = m.index.toNat then (m.get x).toNat / 100
    else if k = m.index.toNat + 1 then (m.get x).toNat / 10 % 10
    else if k = m.index.toNat + 2 then (m.get x).toNat % 10
    else (m.memory.byteAt k).toNat
  by_cases first : k = m.index.toNat
  · simp [stored?, decimalDigits, first]
  by_cases second : k = m.index.toNat + 1
  · simp [stored?, decimalDigits, second]
  by_cases third : k = m.index.toNat + 2
  · simp [stored?, decimalDigits, third]
  rw [if_neg first, if_neg second, if_neg third, stored?]
  split
  · have beyond : (decimalDigits (m.get x)).length ≤ k - m.index.toNat := by
      simp only [decimalDigits, List.length_cons, List.length_nil]
      omega
    rw [List.getElem?_eq_none beyond]
    rfl
  · rfl

/-- The registers that are stored, as the table has them. -/
lemma toNat_stored_store (m : Machine) (x : Register) (k : Nat) :
    (((store x).stored? m k).getD (m.memory.byteAt k)).toNat = m.view.registersStored x k := by
  change _ = if m.index.toNat ≤ k ∧ k ≤ m.index.toNat + x.val then
    (m.get (.ofNat (k - m.index.toNat))).toNat else (m.memory.byteAt k).toNat
  rw [stored?]
  split <;> rfl

/-- The registers that are loaded, as the table has them. -/
lemma toNat_loaded_load (m : Machine) (x r : Register) :
    (((load x).loaded? m r).getD (m.get r)).toNat = m.view.registersLoaded x r := by
  rw [loaded?, View.registersLoaded]
  split <;> rfl

/-- An instruction that is completed leaves the machine that its row of the table says. -/
lemma view_execute {ins : Instruction} {d : Dialect} {policy : UnknownPolicy} {r : RandomSource}
    (at_ : m.pc = .address a) (inside : a + 2 ≤ 4096) (clear : ins.obstacle policy m = none) :
    (ins.execute d policy m.pc m.skip r).machine.view =
      m.view.effect d a (r.bytes r.drawn).toNat ins := by
  -- Every row but the absolute jumps starts from the machine that has passed the instruction.
  have next : m.skip.view = m.view.goTo (a + 2) := Machine.view_skip at_ (by omega)
  have clear' := (obstacle_skip ins policy m).trans clear
  cases ins with
  | clear =>
    simp only [execute, View.effect, ← next]
    have e : (Screen.blank.lit <| Screen.position · ·) = fun _ _ => false := by
      funext column row
      exact Screen.lit_blank _
    rw [← e]
    rfl
  | ret =>
    cases top : m.stack with
    | nil => simp [obstacle, top] at clear
    | cons target rest =>
      have top' : m.skip.stack = target :: rest := top
      simp only [execute, Machine.pop, top', View.effect]
      simp only [Machine.view, top, List.map_cons, List.headD_cons, List.tail_cons]
      rfl
  | jump target => rfl
  | call target =>
    have room : m.stack.length < Machine.stackLimit := by
      by_contra full
      rw [obstacle, if_pos (Nat.le_of_not_lt full)] at clear
      cases clear
    have room' : m.skip.stack.length < Machine.stackLimit := room
    have pc : m.skip.pc = .address (a + 2 : Nat) := congrArg View.pc next
    -- The return address is cut to sixteen bits, which it fits into.
    have pushed : (UInt16.ofInt ((a + 2 : Nat) : Int)).toNat = a + 2 := by
      simp [UInt16.ofInt]
      omega
    simp only [execute, Machine.push, room', if_true, pc, Place.whole, View.effect]
    simp only [Machine.view, List.map_cons, pushed]
    rfl
  | skipEqualByte x value => exact Machine.view_skipIf at_ inside UInt8.toNat_inj.symm
  | skipUnequalByte x value =>
    exact Machine.view_skipIf at_ inside (not_congr UInt8.toNat_inj.symm)
  | skipEqual x y => exact Machine.view_skipIf at_ inside UInt8.toNat_inj.symm
  | skipUnequal x y => exact Machine.view_skipIf at_ inside (not_congr UInt8.toNat_inj.symm)
  | setByte x value => exact (Machine.view_set ..).trans (by rw [next]; rfl)
  | addByte x value =>
    simp only [execute, Machine.view_set, next, UInt8.toNat_add]
    rfl
  | copy x y => exact (Machine.view_set ..).trans (by rw [next]; rfl)
  | or x y =>
    simp only [execute, Machine.view_setLogic, next, UInt8.toNat_or]
    rfl
  | and x y =>
    simp only [execute, Machine.view_setLogic, next, UInt8.toNat_and]
    rfl
  | xor x y =>
    simp only [execute, Machine.view_setLogic, next, UInt8.toNat_xor]
    rfl
  | add x y =>
    simp only [execute, Machine.view_setWithFlag, next, sumFlag, UInt8.toNat_add, decide_eq_true_eq]
    rfl
  | sub x y =>
    simp only [execute, Machine.view_setWithFlag, next, differenceFlag, Machine.toNat_sub,
      decide_eq_true_eq, UInt8.le_iff_toNat_le]
    rfl
  | subFrom x y =>
    simp only [execute, Machine.view_setWithFlag, next, differenceFlag, Machine.toNat_sub,
      decide_eq_true_eq, UInt8.le_iff_toNat_le]
    rfl
  | shiftRight x y =>
    have source : (if d.shiftReadsY then m.skip.get y else m.skip.get x).toNat =
        if d.shiftReadsY then m.view.register y else m.view.register x := by split <;> rfl
    simp only [execute, Machine.view_setWithFlag, next, decide_eq_true_eq, Machine.flag_shiftRight,
      UInt8.toNat_div, source]
    rfl
  | shiftLeft x y =>
    have source : (if d.shiftReadsY then m.skip.get y else m.skip.get x).toNat =
        if d.shiftReadsY then m.view.register y else m.view.register x := by split <;> rfl
    simp only [execute, Machine.view_setWithFlag, next, decide_eq_true_eq, Machine.flag_shiftLeft,
      UInt8.toNat_mul, source]
    rfl
  | setIndex target =>
    have := target.isLt
    exact (Machine.view_setIndex _ (by omega)).trans (by rw [next]; rfl)
  | jumpOffset target =>
    simp only [execute, View.effect, View.goTo]
    rfl
  | random x mask =>
    simp only [execute, RandomSource.next, Machine.view_set, next, UInt8.toNat_and]
    rfl
  | getDelay x => exact (Machine.view_set ..).trans (by rw [next]; rfl)
  | waitKey x => rfl
  | setDelay x =>
    simp only [execute, View.effect, ← next]
    rfl
  | setSound x =>
    simp only [execute, View.effect, ← next]
    rfl
  | draw x y rows =>
    -- The coordinates are read before the flag register is written, which may be one of them.
    have run := m.skip.drawSprite_nat (m.get x).toNat (m.get y).toNat rows.val
    rw [show m.skip.overrun rows.val = none from Option.map_eq_none_iff.1 clear] at run
    obtain ⟨screen, run, mask⟩ := run
    have drawn := Machine.view_draw mask
    rw [next] at drawn
    have outcome : (execute d policy m.pc m.skip r (draw x y rows)).machine =
        ({ m.skip with screen := screen } : Machine).set flag
          (if (Sprite.targets (m.get x).toNat (m.get y).toNat (m.skip.sprite rows)).any
            m.skip.screen.lit then 1 else 0) := by
      simp only [execute, show m.skip.get x = m.get x from rfl,
        show m.skip.get y = m.get y from rfl, run]
    rw [outcome, drawn]
    rfl
  | skipKeyDown x => exact Machine.view_skipIf at_ inside Iff.rfl
  | skipKeyUp x =>
    have flipped : (execute d policy m.pc m.skip r (skipKeyUp x)).machine =
        if m.keypad.holds (keyOf (m.get x)) = false then m.skip.skip else m.skip := by
      simp only [execute, show m.skip.keypad.holds (keyOf (m.skip.get x)) =
        m.keypad.holds (keyOf (m.get x)) from rfl]
      cases m.keypad.holds (keyOf (m.get x)) <;> rfl
    rw [flipped]
    exact Machine.view_skipIf at_ inside Iff.rfl
  | addIndex x =>
    refine (Machine.view_setIndex m.skip (v := (m.index.toNat + (m.get x).toNat) % 4096)
      (by omega)).trans ?_
    rw [next]
    rfl
  | setGlyph x =>
    have address : Font.address (m.get x).toNat = 0x050 + (m.get x).toNat % 16 * 5 := by
      simp only [Font.address, Font.base, Font.glyphRows]
      omega
    simp only [execute, show m.skip.get x = m.get x from rfl, address]
    rw [Machine.view_setIndex _ (by omega), next]
    rfl
  | storeDecimal x =>
    obtain ⟨memory, run, protection, bytes⟩ := writeBytes_decimalDigits m.skip x
    rw [show m.skip.storeFault 3 (m.skip.get x / 100) = none from Option.map_eq_none_iff.1 clear]
      at run
    simp only [execute, run, View.effect, ← next]
    refine Machine.view_memory protection ?_
    intro k
    rw [bytes, stored_of_obstacle_none clear', toNat_stored_storeDecimal]
    rfl
  | store x =>
    obtain ⟨memory, run, protection, bytes⟩ := writeBytes_registersUpTo m.skip x
    rw [show m.skip.storeFault (x.val + 1) (m.skip.get (.ofNat 0)) = none
      from Option.map_eq_none_iff.1 clear] at run
    simp only [execute, run, Machine.view_movedIndex, View.effect, ← next]
    congr 1
    refine Machine.view_memory protection ?_
    intro k
    rw [bytes, stored_of_obstacle_none clear', toNat_stored_store]
    rfl
  | load x =>
    obtain ⟨registers, run, values⟩ := loadRegisters_index m.skip x
    have exceeds : m.skip.overrun (x.val + 1) = none := Option.map_eq_none_iff.1 clear
    have fits := Machine.overrun_eq_none_iff.1 exceeds
    rw [exceeds] at run
    simp only [execute, run, Machine.view_movedIndex, View.effect, ← next]
    congr 1
    refine Machine.view_registers ?_
    intro r
    rw [values, View.registersLoaded]
    by_cases up : r ≤ x
    · have within : r.val ≤ x.val := up
      rw [if_pos ⟨up, by omega⟩, if_pos up]
      rfl
    · rw [if_neg (fun h => up h.1), if_neg up]
      rfl
  | unknown word =>
    cases policy with
    | strict => cases clear
    | lenient => exact next

/-- How many random bytes an instruction draws. -/
def draws : Instruction → Nat
  | random .. => 1
  | _ => 0

/-- An instruction that nothing stands in the way of draws as many bytes as it says. -/
lemma random_execute {ins : Instruction} {d : Dialect} {policy : UnknownPolicy} {pc : Place}
    {r : RandomSource} (clear : ins.obstacle policy m = none) :
    (ins.execute d policy pc m r).random = { r with drawn := r.drawn + ins.draws } := by
  cases ins with
  | ret | call | draw | storeDecimal | store | load =>
    simp only [execute]
    split <;> rfl
  | unknown word =>
    cases policy with
    | strict => cases clear
    | lenient => rfl
  | _ => rfl

end Instruction

namespace Engine

variable {e e' : Engine}

/-- An engine that neither stopped nor waits completes the instruction at its program counter, if
that has no obstacle, and goes on with the machine of its row. -/
lemma step_of_describes {a : Nat} {word : UInt16} {ins : Instruction} (running : e.fault = none)
    (awake : e.machine.keyWait = none) (fetches : e.machine.view.Fetches a word)
    (row : ins.Describes word) (clear : ins.obstacle e.policy e.machine = none) :
    e.step.result = .ok () ∧ e.step.state.fault = none ∧
      e.step.state.machine.view =
        e.machine.view.effect e.dialect a (e.random.bytes e.random.drawn).toNat ins := by
  rw [← row.decode_eq] at clear ⊢
  have fetched := Machine.wordAt_pc_eq_ok_iff.2 ⟨a, fetches⟩
  rw [step_of_obstacle_none running awake fetched clear]
  exact ⟨rfl, running, Instruction.view_execute fetches.1 fetches.2.1 clear⟩

/-- An instruction that was fetched and is completed has its row's effect. -/
lemma view_completed {word : UInt16} (fetched : e.machine.wordAt e.machine.pc = .ok word)
    (clear : (Instruction.decode word).obstacle e.policy e.machine = none) :
    ∃ a, e.machine.view.Fetches a word ∧ (e.completed word).machine.view =
      e.machine.view.effect e.dialect a (e.random.bytes e.random.drawn).toNat
        (Instruction.decode word) := by
  obtain ⟨a, fetches⟩ := Machine.wordAt_pc_eq_ok_iff.1 fetched
  exact ⟨a, fetches, Instruction.view_execute fetches.1 fetches.2.1 clear⟩

/-- The engines that the table makes of an engine: the row that describes the word at the program
counter gives the machine and the number of random bytes drawn, one more instruction is executed,
and everything else stays. Words without a meaning have a row in a lenient engine only. -/
inductive Tabled (e : Engine) : Engine → Prop where
  | row {a word ins m} :
    e.machine.view.Fetches a word →
    ins.Describes word →
    (e.policy = .strict → ins.IsDefined) →
    m.view = e.machine.view.effect e.dialect a (e.random.bytes e.random.drawn).toNat ins →
    Tabled e
      { e with
        machine := m
        random := { e.random with drawn := e.random.drawn + ins.draws }
        executed := e.executed + 1 }

/-- The table leaves nothing open. -/
lemma Tabled.unique (h : e.Tabled e') {e'' : Engine} (h' : e.Tabled e'') : e' = e'' := by
  cases h with
  | @row a word ins m fetches row _ view =>
    cases h' with
    | @row a' word' ins' m' fetches' row' _ view' =>
      obtain ⟨rfl, rfl⟩ := fetches.unique fetches'
      obtain rfl := row.decode_eq.symm.trans row'.decode_eq
      rw [Machine.view_inj (view.trans view'.symm)]

/-- Whenever an engine that neither stopped nor waits completes a step, it has become what the table
makes of it. -/
theorem tabled_iff_step (running : e.fault = none) (awake : e.machine.keyWait = none)
    (done : e.step.result = .ok ()) : e.Tabled e' ↔ e' = e.step.state := by
  suffices h : e.Tabled e.step.state by
    constructor
    · intro h'
      exact h'.unique h
    · rintro rfl
      exact h
  have way := e.step_stepped
  generalize e.step = t at way done
  cases way with
  | halted halted => rw [running] at halted; cases halted
  | polled _ waits => rw [awake] at waits; cases waits
  | unfetched => cases done
  | stopped => cases done
  | @completed word _ _ fetched clear =>
    obtain ⟨a, fetches⟩ := Machine.wordAt_pc_eq_ok_iff.1 fetched
    have inside : a + 2 ≤ 4096 := fetches.2.1
    have clear' := (Instruction.obstacle_skip _ _ _).trans clear
    have row := Instruction.describes_decode word
    have defined : e.policy = .strict → (Instruction.decode word).IsDefined := by
      intro strict
      cases h : Instruction.decode word with
      | unknown => rw [h, strict] at clear; cases clear
      | _ => trivial
    have view := Instruction.view_execute (d := e.dialect) (r := e.random) fetches.1 inside clear
    rw [completed, outcome, Instruction.random_execute clear']
    exact .row fetches row defined view

/-- An engine about to add register one to the flag register. -/
def adding : Engine :=
  .start { Machine.start ((Memory.blank.set 0x200 0x8F).set 0x201 0x14) with
    registers := #v[0, 200, 0, 0, 0, 0, 0, 0, 0, 0, 0, 0, 0, 0, 0, 100] }
    {} .strict .off (.cycle [])

/-- The step of a program that adds, and the table for it. -/
theorem tabled_iff_step_adding : adding.fault = none ∧ adding.machine.keyWait = none ∧
    adding.step.result = .ok () ∧ ∀ e', adding.Tabled e' ↔ e' = adding.step.state :=
  have fetched : adding.machine.wordAt adding.machine.pc = .ok 0x8F14 := by
    refine Machine.wordAt_pc_eq_ok_iff.2 ⟨0x200, rfl, by decide, ?_⟩
    simp [adding, start, Machine.start, Machine.view, Memory.byteAt_set, Memory.size]
  have done : adding.step.result = .ok () := by
    rw [step_of_obstacle_none rfl rfl fetched rfl]
  ⟨rfl, rfl, done, fun _ => tabled_iff_step rfl rfl done⟩

end Engine

end Chip8
