import Chip8.Proofs.Waiting
/-!
# The reserved region

The bytes below the start of programs are those of power-on, whatever a program does
(`isIntact_invariant`): a store that starts in the protected region is refused, one that starts
behind it goes up from there (`Instruction.stored?_of_lt`), and a program is loaded behind it. So
the sprites of the digits can be drawn at any time, as `reserved_of_reachable` says.
-/

namespace Chip8

/-- The rows of the sprite of a digit, of which the low four bits count. -/
def Font.glyph (digit : Nat) : Sprite := (rows.drop (digit % 16 * glyphRows)).take glyphRows

/-- The rows of a glyph are five in a row of the font. -/
lemma Font.map_getD_rows : ∀ digit : Digit,
    (List.range 5).map (fun k => rows.getD (digit * 5 + k) 0) = glyph digit := by
  decide

namespace Memory

/-- A memory that is protected below the start of programs and has the bytes of power-on there. -/
structure IsIntact (m : Memory) : Prop where
  protection : m.reservedProtected = true
  bytes {k : Nat} : k < programStart → m.byteAt k = powerOn.byteAt k

/-- A program is loaded behind the font, which stays intact. -/
lemma isIntact_load_powerOn (rom : Rom) : (powerOn.load rom).IsIntact where
  protection := rfl
  bytes low := by rw [byteAt_load, if_pos low]

end Memory

namespace Machine

variable {m : Machine}

/-- At the address of a digit there is its sprite. -/
lemma sprite_of_isIntact (intact : m.memory.IsIntact) {digit : Nat}
    (points : m.index.toNat = 0x050 + digit % 16 * 5) : m.sprite 5 = Font.glyph digit := by
  have low : digit % 16 < 16 := Nat.mod_lt _ (by decide)
  have rows := Font.map_getD_rows ⟨digit % 16, low⟩
  have same : Font.glyph (digit % 16) = Font.glyph digit := by
    rw [Font.glyph, Nat.mod_mod, Font.glyph]
  rw [← same, ← rows]
  apply List.map_congr_left
  intro k row
  have within := List.mem_range.1 row
  rw [intact.bytes (by simp only [Memory.programStart]; omega), Memory.byteAt_powerOn,
    if_neg (by simp only [Font.base]; omega), points]
  congr 1
  simp only [Font.base]
  omega

/-- What a host or an instruction reads when it draws a digit. -/
lemma readBytes_of_isIntact (intact : m.memory.IsIntact) {digit : Nat}
    (points : m.index.toNat = 0x050 + digit % 16 * 5) :
    m.readBytes m.index.toNat 5 = .ok (Font.glyph digit) := by
  rw [readBytes_nat, if_neg (by simp only [Memory.size]; omega), ← sprite_of_isIntact intact points]
  rfl

end Machine

namespace Instruction

variable {m : Machine} {ins : Instruction} {k : Nat}

/-- No instruction stores below the index. -/
lemma stored?_of_lt (low : k < m.index.toNat) : ins.stored? m k = none := by
  cases ins with
  | storeDecimal x => exact if_neg (Nat.not_le.2 low)
  | store x => exact if_neg fun h => Nat.not_le.2 low h.1
  | _ => rfl

/-- What an instruction stores, whether it is completed or not, leaves the reserved region as it
is. -/
lemma isIntact_of_stored (ins : Instruction) {memory : Memory} (intact : m.memory.IsIntact)
    (protection : memory.reservedProtected = m.memory.reservedProtected)
    (bytes : ∀ k, memory.byteAt k =
      if m.memory.IsFree m.index.toNat ∧ k < Memory.size then
        (ins.stored? m k).getD (m.memory.byteAt k)
      else m.memory.byteAt k) : memory.IsIntact where
  protection := protection.trans intact.protection
  bytes {k} low := by
    rw [bytes, ← intact.bytes low]
    split
    case isTrue h =>
      have start := h.1 intact.protection
      rw [stored?_of_lt (Nat.lt_of_lt_of_le low start), Option.getD_none]
    case isFalse => rfl

/-- A sprite that is in memory is drawn on the screen as it is. -/
lemma screen_execute_draw {d : Dialect} {policy : UnknownPolicy} {pc : Place} {r : RandomSource}
    {x y : Register} {rows : Digit} (clear : (draw x y rows).obstacle policy m = none) :
    ((draw x y rows).execute d policy pc m r).machine.screen =
      (m.screen.draw (m.get x).toNat (m.get y).toNat (m.sprite rows)).1 := by
  have within : ¬ (0 < rows.val ∧ Memory.size < m.index.toNat + rows.val) := by
    have := Machine.overrun_eq_none_iff.1 (Option.map_eq_none_iff.1 clear)
    omega
  obtain ⟨screen, drawn, -⟩ := m.screen.draw_nat (m.get x).toNat (m.get y).toNat (m.sprite rows)
  simp only [execute, Machine.drawSprite, Machine.drawBytes, Machine.readBytes_nat, if_neg within]
  rw [Machine.sprite] at drawn ⊢
  simp only [drawn]
  rfl

/-- The table changes memory as the instruction does. -/
lemma memory_effect (m : Machine) (d : Dialect) (a byte k : Nat) :
    (m.view.effect d a byte ins).memory k =
      ((ins.stored? m k).getD (m.memory.byteAt k)).toNat := by
  cases ins with
  | storeDecimal x => exact (toNat_stored_storeDecimal m x k).symm
  | store x =>
    rw [toNat_stored_store, View.effect, View.moved_eq]
  | or | and | xor =>
    rw [View.effect, View.putLogic_eq]
    rfl
  | load =>
    rw [View.effect, View.moved_eq]
    rfl
  | _ => rfl

/-- No instruction changes the protection. -/
lemma readOnly_effect (s : View) (d : Dialect) (a byte : Nat) :
    (s.effect d a byte ins).readOnly = s.readOnly := by
  cases ins with
  | or | and | xor =>
    rw [View.effect, View.putLogic_eq]
    rfl
  | store | load =>
    rw [View.effect, View.moved_eq]
    rfl
  | _ => rfl

end Instruction

namespace Engine

variable {e : Engine}

/-- A look for a key does not touch memory. -/
lemma memory_poll (target : Register) : (e.poll target).machine.memory = e.machine.memory := by
  rw [poll_rest]

/-- An instruction that is completed leaves the font intact. -/
lemma isIntact_completed {word : UInt16} (intact : e.machine.memory.IsIntact)
    (fetched : e.machine.wordAt e.machine.pc = .ok word)
    (clear : (Instruction.decode word).obstacle e.policy e.machine = none) :
    (e.completed word).machine.memory.IsIntact := by
  obtain ⟨a, -, view⟩ := view_completed fetched clear
  refine Instruction.isIntact_of_stored (.decode word) intact ?_ ?_
  · exact (congrArg View.readOnly view).trans (Instruction.readOnly_effect ..)
  · intro k
    rw [Instruction.stored_of_obstacle_none clear]
    exact UInt8.toNat_inj.1 ((congrFun (congrArg View.memory view) k).trans
      (Instruction.memory_effect ..))

/-- The reserved region is intact at any time. -/
lemma isIntact_invariant : Invariant fun e => e.machine.memory.IsIntact where
  step {e} h := by
    have way := e.step_stepped
    generalize e.step = t at way
    cases way with
    | halted | unfetched => exact h
    | polled =>
      rw [memory_poll]
      exact h
    | completed _ _ fetched clear => exact isIntact_completed h fetched clear
    | stopped _ _ _ _ remnant =>
      exact Instruction.isIntact_of_stored _ h remnant.protection remnant.bytes
  tick h := h
  press _ _ h := h
  release h := h
  fresh _ _ rom _ := Memory.isIntact_load_powerOn rom
  hook _ h := h
  policy _ h := h

/-- An engine that is about to execute an instruction of the table. -/
def IsAt (e : Engine) (ins : Instruction) : Prop :=
  e.fault = none ∧ e.machine.keyWait = none ∧
    ∃ a word, e.machine.view.Fetches a word ∧ ins.Describes word

/-- An engine that follows a program is about to execute its instructions. -/
lemma Follows.isAt {rom : Rom} {k : Nat} {word : UInt16} (h : e.Follows rom k)
    (has : rom.Has k word) (row : ins.Describes word) : e.IsAt ins :=
  ⟨h.running, h.awake, _, _, h.fetches has, row⟩

/-- Pointing the index at a digit. -/
lemma step_setGlyph {x : Register} (next : e.IsAt (.setGlyph x)) :
    e.step.result = .ok () ∧
      e.step.state.machine.index.toNat = 0x050 + (e.machine.get x).toNat % 16 * 5 := by
  obtain ⟨running, awake, a, word, fetches, row⟩ := next
  obtain ⟨done, -, view⟩ := step_of_describes running awake fetches row rfl
  exact ⟨done, congrArg View.index view⟩

/-- Drawing a sprite that is in memory. -/
lemma step_draw {x y : Register} {rows : Digit} (next : e.IsAt (.draw x y rows))
    (within : e.machine.index.toNat + rows ≤ Memory.size) :
    e.step.result = .ok () ∧ e.step.state.machine.screen =
      (e.machine.screen.draw (e.machine.get x).toNat (e.machine.get y).toNat
        (e.machine.sprite rows)).1 := by
  obtain ⟨running, awake, a, word, fetches, row⟩ := next
  have clear : (Instruction.draw x y rows).obstacle e.policy e.machine = none :=
    Option.map_eq_none_iff.2 (Machine.overrun_eq_none_iff.2 (.inr within))
  have fetched := Machine.wordAt_pc_eq_ok_iff.2 ⟨a, fetches⟩
  rw [step_of_obstacle_none running awake fetched (row.decode_eq ▸ clear), completed, outcome,
    row.decode_eq]
  exact ⟨rfl, Instruction.screen_execute_draw (m := e.machine.skip) clear⟩

end Engine

namespace Session

variable {s : Session}

/-- In every session that can be reached, the bytes below the start of programs are the sprites of
the digits with zeros around them. So once the index was pointed at a digit, any five bytes that are
read from there on are the rows of that digit, and they are what is drawn. -/
theorem reserved_of_reachable (reachable : s.Reachable) :
    (∀ a : Nat, a < 0x200 → s.machine.memory.read a =
      .ok (if a < 0x050 then 0 else Font.rows.getD (a - 0x050) 0)) ∧
    ∀ x, s.engine.IsAt (.setGlyph x) → s.step.result = .ok () ∧
      ∀ acts t, t = s.step.state.after acts → t.machine.index = s.step.state.machine.index →
        t.machine.readBytes t.machine.index.toNat 5 = .ok (Font.glyph (s.machine.get x).toNat) ∧
        ∀ y z, t.engine.IsAt (.draw y z 5) → t.step.result = .ok () ∧
          t.step.state.machine.screen =
            (t.machine.screen.draw (t.machine.get y).toNat (t.machine.get z).toNat
              (Font.glyph (s.machine.get x).toNat)).1 := by
  have intact := Engine.isIntact_invariant.reachable reachable
  refine ⟨?_, ?_⟩
  · intro a low
    have inside : a < Memory.size := Nat.lt_trans low (by decide)
    exact (Memory.read_nat inside).trans
      (congrArg Except.ok ((intact.bytes low).trans (Memory.byteAt_powerOn a)))
  · intro x next
    obtain ⟨done, index⟩ := Engine.step_setGlyph next
    refine ⟨done, ?_⟩
    rintro acts t rfl same
    have later := Engine.isIntact_invariant.reachable (reachable.step.after acts)
    have points := (congrArg UInt16.toNat same).trans index
    refine ⟨Machine.readBytes_of_isIntact later points, ?_⟩
    intro y z drawing
    have within : (s.step.state.after acts).machine.index.toNat + 5 ≤ Memory.size := by
      rw [points]
      simp only [Memory.size]
      omega
    obtain ⟨drawn, screen⟩ := Engine.step_draw drawing within
    have sprite : (s.step.state.after acts).machine.sprite 5 = _ :=
      Machine.sprite_of_isIntact later points
    exact ⟨drawn, screen.trans (congrArg (fun rows => (Screen.draw _ _ _ rows).1) sprite)⟩

/-- The program that draws the digit zero. -/
def zero : Rom := ⟨[0xF0, 0x29, 0xD0, 0x05], by decide⟩

/-- A program that sets the index to the glyph of zero and draws it. -/
theorem reserved_of_reachable_zero :
    ∃ s : Session, s.Reachable ∧ s.engine.IsAt (.setGlyph 0) ∧
      s.step.state.engine.IsAt (.draw 0 0 5) ∧
      s.step.state.step.state.machine.screen =
        (s.step.state.machine.screen.draw (s.step.state.machine.get 0).toNat
          (s.step.state.machine.get 0).toNat [0xF0, 0x90, 0x90, 0x90, 0xF0]).1 := by
  obtain ⟨s, begins⟩ := exists_begins zero
  have first := begins.follows
  obtain ⟨-, second, -⟩ := first.step 0xF029 2 ⟨by decide, rfl⟩ rfl ⟨rfl, rfl, rfl⟩
  have pointing : s.engine.IsAt (.setGlyph 0) :=
    first.isAt ⟨by decide, rfl⟩ (Instruction.describes_decode 0xF029)
  have drawing : s.step.state.engine.IsAt (.draw 0 0 5) :=
    second.isAt ⟨by decide, rfl⟩ (Instruction.describes_decode 0xD005)
  obtain ⟨-, drawn⟩ := (reserved_of_reachable begins.reachable).2 0 pointing
  obtain ⟨-, screen⟩ := (drawn [] _ rfl rfl).2 0 0 drawing
  rw [begins.cleared] at screen
  exact ⟨s, begins.reachable, pointing, drawing, screen⟩

end Session

end Chip8
