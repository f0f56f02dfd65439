import Chip8.Proofs.Completions
/-!
# What a dialect decides

Each flag of a dialect rules some instructions (`Dialect.ruling`). An instruction that two dialects
rule alike does the same in both (`Instruction.execute_of_ruling`), and any other leaves machines
that differ at most in one or two registers or in the index (`Instruction.execute_dialects`). So
sessions that differ in nothing but the dialect go along until they come to such an instruction
(`Session.accompanies_dialects`), and `dialects_agree` says how they part.
-/

namespace Chip8

/-- How a dialect rules an instruction. Where it has no say, all dialects rule alike. -/
def Dialect.ruling (d : Dialect) : Instruction → Bool
  | .shiftRight .. | .shiftLeft .. => d.shiftReadsY
  | .store _ | .load _ => d.transferMovesIndex
  | .or .. | .and .. | .xor .. => d.logicClearsFlag
  | _ => false

namespace Instruction

variable {ins : Instruction} {d d' : Dialect} {policy : UnknownPolicy} {pc : Place} {m m' : Machine}
  {r : RandomSource}

/-- The registers in which dialects may differ after an instruction. -/
def ruledRegisters : Instruction → List Register
  | shiftRight x _ | shiftLeft x _ => [x, flag]
  | or .. | and .. | xor .. => [flag]
  | _ => []

/-- Whether dialects may differ in the index after an instruction. -/
def rulesIndex : Instruction → Bool
  | store _ | load _ => true
  | _ => false

/-- Machines that are the same but for what dialects may differ in after an instruction. -/
structure Varies (ins : Instruction) (m m' : Machine) : Prop where
  rest : m' = { m with registers := m'.registers, index := m'.index }
  registers (x : Register) : x ∉ ins.ruledRegisters → m'.get x = m.get x
  index : ins.rulesIndex = false → m'.index = m.index

/-- A machine varies from itself. -/
lemma Varies.refl (ins : Instruction) (m : Machine) : ins.Varies m m :=
  ⟨rfl, fun _ _ => rfl, fun _ => rfl⟩

/-- Two results of a shift, each with its flag. -/
lemma varies_setWithFlag {x : Register} (ruled : ins.ruledRegisters = [x, flag])
    (m : Machine) (result result' : UInt8 × Bool) :
    ins.Varies (setWithFlag m x result) (setWithFlag m x result') where
  rest := rfl
  registers y other := by
    rw [ruled, List.mem_cons, List.mem_singleton, not_or] at other
    simp only [setWithFlag, Machine.get_set, if_neg other.1, if_neg other.2]
  index _ := rfl

/-- Two results of a logical instruction, each with what a dialect does to the flag. -/
lemma varies_setLogic (ruled : ins.ruledRegisters = [flag]) (d d' : Dialect) (m : Machine)
    (x : Register) (result : UInt8) :
    ins.Varies (setLogic d m x result) (setLogic d' m x result) := by
  have get (d : Dialect) (y : Register) (other : y ∉ ins.ruledRegisters) :
      (setLogic d m x result).get y = (m.set x result).get y := by
    rw [ruled, List.mem_singleton] at other
    rw [setLogic]
    split
    · rw [Machine.get_set, if_neg other]
    · rfl
  refine ⟨?_, fun y other => (get d' y other).trans (get d y other).symm, ?_⟩
  · rw [setLogic, setLogic]
    split <;> split <;> rfl
  · intro
    rw [setLogic, setLogic]
    split <;> split <;> rfl

/-- Two indices after a transfer of registers, each moved as a dialect says. -/
lemma varies_movedIndex (ruled : ins.rulesIndex = true) (d d' : Dialect) (m : Machine)
    (x : Register) : ins.Varies (movedIndex d m x) (movedIndex d' m x) := by
  refine ⟨?_, ?_, ?_⟩
  · rw [movedIndex, movedIndex]
    split <;> split <;> rfl
  · intro y other
    rw [movedIndex, movedIndex]
    split <;> split <;> rfl
  · intro never
    rw [ruled] at never
    cases never

/-- Dialects leave machines that differ at most in what they rule, and nothing else depends on
them. -/
lemma execute_dialects (ins : Instruction) (d d' : Dialect) (policy : UnknownPolicy) (pc : Place)
    (m : Machine) (r : RandomSource) :
    ins.Varies (ins.execute d policy pc m r).machine (ins.execute d' policy pc m r).machine ∧
      (ins.execute d' policy pc m r).random = (ins.execute d policy pc m r).random := by
  cases ins with
  | or | and | xor => exact ⟨varies_setLogic rfl d d' m _ _, rfl⟩
  | shiftRight | shiftLeft => exact ⟨varies_setWithFlag rfl m _ _, rfl⟩
  | store | load =>
    simp only [execute]
    split
    case h_1 => exact ⟨varies_movedIndex rfl d d' _ _, rfl⟩
    case h_2 => exact ⟨.refl _ _, rfl⟩
  | _ => exact ⟨.refl _ _, rfl⟩

/-- Dialects that rule an instruction alike do the same with it. -/
lemma execute_of_ruling (alike : d'.ruling ins = d.ruling ins) :
    ins.execute d' policy pc m r = ins.execute d policy pc m r := by
  cases ins with
  | or | and | xor => simp only [execute, setLogic, show d'.logicClearsFlag = _ from alike]; rfl
  | shiftRight | shiftLeft => simp only [execute, show d'.shiftReadsY = _ from alike]; rfl
  | store | load =>
    simp only [execute, movedIndex, show d'.transferMovesIndex = _ from alike]
    rfl
  | _ => rfl

/-- All dialects do the same with an instruction that is not completed. -/
lemma execute_of_obstacle_dialect {cause : FaultCause}
    (blocked : ins.obstacle policy m = some cause) :
    ins.execute d' policy pc m r = ins.execute d policy pc m r := by
  cases ins with
  | store x =>
    obtain ⟨fault, held, -⟩ := Option.map_eq_some_iff.1 blocked
    obtain ⟨memory, run, -⟩ := writeBytes_registersUpTo m x
    rw [held] at run
    simp only [execute, run]
  | load x =>
    obtain ⟨fault, exceeds, -⟩ := Option.map_eq_some_iff.1 blocked
    obtain ⟨registers, run, -⟩ := loadRegisters_index m x
    rw [exceeds] at run
    simp only [execute, run]
  | or | and | xor | shiftRight | shiftLeft => cases blocked
  | _ => rfl

end Instruction

namespace Engine

variable {e : Engine} {ins : Instruction} {d : Dialect}

/-- The engine with another dialect. -/
def withDialect (e : Engine) (dialect : Dialect) : Engine := { e with dialect := dialect }

/-- Steps do not change the dialect. -/
lemma dialect_step (e : Engine) : e.step.state.dialect = e.dialect := by
  have way := e.step_stepped
  generalize e.step = t at way
  cases way with
  | polled => rw [poll_rest]
  | halted | unfetched | completed | stopped => rfl

/-- Running a word comes to the same in both dialects if executing it does. -/
lemma run_withDialect {word : UInt16}
    (same : (Instruction.decode word).execute d e.policy e.machine.pc e.machine.skip e.random =
      (Instruction.decode word).execute e.dialect e.policy e.machine.pc e.machine.skip e.random) :
    Transition.Alike (fun e e' => e' = e.withDialect d) (e.run word)
      ((e.withDialect d).run word) := by
  simp only [run, withDialect, same]
  rcases Instruction.execute e.dialect e.policy e.machine.pc e.machine.skip e.random
    (Instruction.decode word) with ⟨m, r, abort⟩
  cases abort with
  | none => exact .intro rfl
  | some abort => cases abort <;> exact .intro rfl

/-- A step goes the same way in two dialects, unless it completes an instruction that they rule
differently. -/
lemma step_withDialect (alike : ∀ ins ∈ e.completing?, d.ruling ins = e.dialect.ruling ins) :
    Transition.Alike (fun e e' => e' = e.withDialect d) e.step (e.withDialect d).step := by
  refine step_alike rfl rfl rfl (fun m f n => rfl) rfl ?_
  intro word running awake fetched
  refine run_withDialect ?_
  cases clear : (Instruction.decode word).obstacle e.policy e.machine with
  | none =>
    exact Instruction.execute_of_ruling
      (alike _ (completing?_of_fetched running awake fetched clear))
  | some cause =>
    exact Instruction.execute_of_obstacle_dialect ((Instruction.obstacle_skip _ _ _).trans clear)

/-- An instruction that is completed in one dialect is completed in any other, with a machine that
differs at most in what dialects rule. -/
lemma step_withDialect_of_completing (known : e.completing? = some ins) (d : Dialect) :
    ∃ m, (e.withDialect d).step.state = (e.step.state.withMachine m).withDialect d ∧
      ins.Varies e.step.state.machine m ∧ (e.withDialect d).step.result = e.step.result := by
  obtain ⟨⟨running, awake, -⟩, done⟩ := completing?_eq_some_iff.1 known
  obtain ⟨word, fetched, rfl, clear, completed⟩ := state_of_completing known
  have other : (e.withDialect d).step = _ := step_of_obstacle_none running awake fetched clear
  obtain ⟨varies, random⟩ := (Instruction.decode word).execute_dialects e.dialect d e.policy
    e.machine.pc e.machine.skip e.random
  refine ⟨((e.withDialect d).outcome word).machine, ?_, ?_, ?_⟩
  · rw [other, completed]
    simp only [Engine.completed, withMachine, withDialect, outcome, random]
  · rw [completed]
    exact varies
  · rw [other, done]

end Engine

namespace Session

variable {s : Session} {a : Action} {d d' : Dialect}

/-- The session in another dialect. -/
def withDialect (s : Session) (dialect : Dialect) : Session :=
  { s with
    settings := { s.settings with dialect := dialect }
    engine := s.engine.withDialect dialect }

/-- A program is booted in the same way in every dialect. -/
lemma boot_withDialect (s : Session) (d : Dialect) (rom : Rom) :
    (s.withDialect d).boot rom = (s.boot rom).withDialect d := by
  rw [boot, boot]
  generalize Memory.powerOn.load rom = memory
  rfl

/-- A session that is in a dialect now and after a new start. -/
def Speaks (s : Session) (d : Dialect) : Prop := s.engine.dialect = d ∧ s.settings.dialect = d

/-- Actions do not change the dialect. -/
lemma Speaks.act (speaks : s.Speaks d) (whole : a ≠ .frame) : (s.act a).state.Speaks d := by
  by_cases idle : a = .step
  · rw [idle]
    exact ⟨s.engine.dialect_step.trans speaks.1, speaks.2⟩
  · exact act_keeps (P := (Speaks · d)) speaks whole idle (fun _ => ⟨speaks.2, speaks.2⟩)
      (fun _ => speaks) (fun _ => speaks) fun _ => speaks

/-- Sessions that differ at most in the dialect, where the dialects rule all instructions to come
alike. -/
def Dialects (d d' : Dialect) (later : List Instruction) (s s' : Session) : Prop :=
  s.Speaks d ∧ s' = s.withDialect d' ∧ ∀ ins ∈ later, d'.ruling ins = d.ruling ins

/-- Sessions that differ in their dialects go along until an instruction is completed that the
dialect has a say in. -/
lemma accompanies_dialects (d d' : Dialect) : Accompanies (Dialects d d') where
  budget := by rintro s - later ⟨-, rfl, -⟩; rfl
  fault := by rintro s - later ⟨-, rfl, -⟩; rfl
  act := by
    rintro s - a later whole ⟨speaks, rfl, alike⟩
    refine ⟨speaks.act whole, ?_, fun ins member => alike ins (List.mem_append_right _ member)⟩
    by_cases idle : a = .step
    · subst idle
      have steps := Engine.step_withDialect (e := s.engine) (d := d') (by
        intro ins known
        rw [speaks.1]
        refine alike ins (List.mem_append_left _ ?_)
        rwa [completed?, Option.mem_toList])
      exact congrArg (s.withDialect d').withEngine steps.state
    · exact act_alike (R := fun t t' => t' = t.withDialect d') rfl whole idle rfl rfl
        (boot_withDialect s d') (fun _ => rfl) (fun _ => rfl) fun _ => rfl

/-- Two runs of any actions, with the same settings but for the dialect, their frames being taken
apart. As long as the two dialects rule all instructions alike that are completed, both runs take
the same course, and the sessions are the same at any time but for their dialect. The next
instruction that is completed, however the dialects rule it, is completed in both and leaves the
same but for what dialects may differ in: after a shift the register shifted and the flag, after a
transfer the index, and after a logical operation the flag. -/
theorem dialects_agree (settings : Settings) (tracing : Tracing) (random : RandomSource)
    (d d' : Dialect) (acts : List Action) :
    let s := start { settings with dialect := d } tracing random
    let s' := start { settings with dialect := d' } tracing random
    s.after (s.unrolled acts) = s.after acts ∧ s'.after (s'.unrolled acts) = s'.after acts ∧
      (s.Returns acts → ∀ past, past <+: s.unrolled acts → s.Past acts past) ∧
      (s.Returns acts → (∀ ins ∈ s.completions (s.unrolled acts), d'.ruling ins = d.ruling ins) →
        s'.Returns acts ∧ s'.unrolled acts = s.unrolled acts) ∧
      ∀ past, s.Past acts past →
        (∀ ins ∈ s.completions past, d'.ruling ins = d.ruling ins) →
          s'.Past acts past ∧ s'.after past = (s.after past).withDialect d' ∧
          ∀ ins, (s.after past).engine.completing? = some ins →
            (s'.after past).step.result = .ok () ∧ (s.after past).step.result = .ok () ∧
            ∃ m, (s'.after past).step.state =
                ((s.after past).step.state.withMachine m).withDialect d' ∧
              ins.Varies (s.after past).step.state.machine m := by
  intro s s'
  have along := accompanies_dialects d d'
  have first {past : List Action}
      (alike : ∀ ins ∈ s.completions past, d'.ruling ins = d.ruling ins) :
      Dialects d d' (s.completions past ++ []) s s' := by
    rw [List.append_nil]
    exact ⟨⟨rfl, rfl⟩, rfl, alike⟩
  refine ⟨s.after_unrolled acts, s'.after_unrolled acts,
    fun returns past => past_of_prefix returns, ?_, ?_⟩
  · exact fun returns alike => along.unrolled returns (first alike)
  intro past early alike
  have whole : ∀ a ∈ past, a ≠ .frame := fun a => ne_frame_of_mem_past early
  obtain ⟨-, same, -⟩ := along.after whole (first alike)
  refine ⟨along.past early (first alike), same, ?_⟩
  intro ins known
  obtain ⟨m, state, varies, result⟩ := Engine.step_withDialect_of_completing known d'
  have done := (Engine.completing?_eq_some_iff.1 known).2
  rw [same]
  refine ⟨result.trans done, done, m, ?_, varies⟩
  exact congrArg ((s.after past).withDialect d').withEngine state

/-- A shift of a register that is zero, or of one that is nine, as the first instruction that the
two dialects rule differently. -/
theorem dialects_agree_shift :
    let d' : Dialect := { shiftReadsY := true }
    let acts : List Action := [.load [0x62, 0x09, 0x81, 0x26], .step]
    ∃ s s' : Session, s = (start {} .off (.cycle [])).after acts ∧
      s' = (start { dialect := d' } .off (.cycle [])).after acts ∧ s' = s.withDialect d' ∧
      s.step.state.machine.get 1 = 0 ∧ s'.step.state.machine.get 1 = 4 ∧
      ∃ m, s'.step.state = (s.step.state.withMachine m).withDialect d' ∧
        (Instruction.shiftRight 1 2).Varies s.step.state.machine m := by
  intro d' acts
  obtain ⟨u, begins, speaks, loaded⟩ : ∃ u : Session,
      u.Begins ⟨[0x62, 0x09, 0x81, 0x26], by decide⟩ ∧ u.Speaks {} ∧
        ((start {} .off (.cycle [])).act (.load [0x62, 0x09, 0x81, 0x26])).state = u :=
    ⟨_, begins_boot (.start {} .off (.cycle [])) _, ⟨rfl, rfl⟩,
      congrArg Transition.state (act_load rfl)⟩
  have begun := begins.follows
  obtain ⟨done, follows, view⟩ := begun.step 0x6209 2 ⟨by decide, rfl⟩ rfl ⟨rfl, rfl, rfl⟩
  have next₁ : u.engine.completing? = some (.setByte 2 9) := Engine.completing?_eq_some_iff.2
    ⟨begun.isAt ⟨by decide, rfl⟩ (Instruction.describes_decode 0x6209), done⟩
  have at₂ : u.step.state.machine.view.Fetches 0x202 0x8126 := follows.fetches ⟨by decide, rfl⟩
  have row₂ : (Instruction.shiftRight 1 2).Describes 0x8126 := Instruction.describes_decode 0x8126
  have next₂ := Engine.completing?_of_describes follows.running follows.awake at₂ row₂ rfl
  have last : (start {} .off (.cycle [])).after acts = u.step.state := by
    rw [after, loaded]
    rfl
  have one : (start {} .off (.cycle [])).completions acts = [.setByte 2 9] := by
    calc
      _ = u.completions [.step] := by rw [completions, loaded]; rfl
      _ = [.setByte 2 9] := by rw [completions, completed?, next₁]; rfl
  obtain ⟨-, -, early, -, agree⟩ := dialects_agree {} .off (.cycle []) {} d' acts
  have past := early ⟨Action.noConfusion, Action.noConfusion, trivial⟩ acts List.prefix_rfl
  obtain ⟨-, same, first⟩ := agree acts past (by
    intro ins member
    rw [show (start { ({} : Settings) with dialect := {} } .off (.cycle [])).completions acts = _
      from one] at member
    cases List.mem_singleton.1 member
    rfl)
  obtain ⟨-, -, m, state, varies⟩ :=
    first (.shiftRight 1 2) ((congrArg (·.engine.completing?) last).trans next₂)
  have shifted (d : Dialect) :
      ((u.step.state.engine.withDialect d).step.state.machine.get 1).toNat =
        (if d.shiftReadsY then 9 else 0) / 2 := by
    obtain ⟨-, -, shift⟩ := Engine.step_of_describes (e := u.step.state.engine.withDialect d)
      follows.running follows.awake at₂ row₂ rfl
    have x : u.step.state.machine.view.register 1 = 0 :=
      (congrFun (congrArg View.register view) 1).trans (congrArg UInt8.toNat (begins.cleared 1))
    have y : u.step.state.machine.view.register 2 = 9 := congrFun (congrArg View.register view) 2
    rw [← x, ← y]
    exact congrFun (congrArg View.register shift) 1
  refine ⟨_, _, rfl, rfl, same, ?_, ?_, m, state, varies⟩
  · rw [last]
    have dialect := u.engine.dialect_step.trans speaks.1
    exact UInt8.toNat_inj.1 ((shifted u.step.state.engine.dialect).trans (by
      rw [show u.step.state.engine.dialect = {} from dialect]
      rfl))
  · have moved : (start { dialect := d' } .off (.cycle [])).after acts =
        u.step.state.withDialect d' := same.trans (congrArg (withDialect · d') last)
    rw [moved]
    exact UInt8.toNat_inj.1 ((shifted d').trans (by decide))

end Session

end Chip8
