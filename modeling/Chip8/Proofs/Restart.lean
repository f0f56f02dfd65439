import Chip8.Proofs.Lockstep
/-!
# New starts

A load and a reset build machine and engine anew from the settings and a program. Of what happened
before, they keep the position in the stream of random bytes. What has been drawn of a stream makes
no difference for what is to come (`Session.twins_act`), and the program that a session keeps is the
last one that it accepted (`Session.rom_after`). So `reset_forgets`: after a reset, two histories
with the same last program cannot be told apart from each other nor from a new session.
-/

namespace Chip8

namespace RandomSource

/-- The bytes that are still to be drawn. -/
def upcoming (r : RandomSource) (k : Nat) : UInt8 := r.bytes (r.drawn + k)

variable {r r' : RandomSource}

/-- Sources with the same bytes ahead give the same byte, and have the same bytes ahead again. -/
lemma next_of_upcoming (same : r'.upcoming = r.upcoming) :
    r'.next.1 = r.next.1 ∧ r'.next.2.upcoming = r.next.2.upcoming := by
  refine ⟨congrFun same 0, ?_⟩
  funext k
  have later := congrFun same (1 + k)
  simp only [upcoming, ← Nat.add_assoc] at later
  exact later

end RandomSource

/-- An instruction depends on nothing but the random bytes that are still to be drawn. -/
lemma Instruction.execute_of_upcoming {r r' : RandomSource} (same : r'.upcoming = r.upcoming)
    (ins : Instruction) (d : Dialect) (policy : UnknownPolicy) (pc : Place) (m : Machine) :
    (ins.execute d policy pc m r').machine = (ins.execute d policy pc m r).machine ∧
      (ins.execute d policy pc m r').abort = (ins.execute d policy pc m r).abort ∧
      (ins.execute d policy pc m r').random.upcoming =
        (ins.execute d policy pc m r).random.upcoming := by
  cases ins with
  | random x mask =>
    obtain ⟨byte, later⟩ := RandomSource.next_of_upcoming same
    exact ⟨congrArg (fun byte => m.set x (byte &&& mask)) byte, rfl, later⟩
  | ret | call | draw | storeDecimal | store | load =>
    simp only [execute]
    split <;> exact ⟨rfl, rfl, same⟩
  | unknown word => cases policy <;> exact ⟨rfl, rfl, same⟩
  | _ => exact ⟨rfl, rfl, same⟩

namespace Engine

variable {e e' : Engine} {r : RandomSource}

/-- The engine with another source. -/
def withRandom (e : Engine) (random : RandomSource) : Engine := { e with random := random }

/-- Engines that differ at most in how many random bytes they have drawn, with the same still to be
drawn. -/
def Twins (e e' : Engine) : Prop := ∃ r, r.upcoming = e.random.upcoming ∧ e' = e.withRandom r

/-- Running a word comes to the same with any two sources that have the same bytes ahead. -/
lemma run_withRandom (same : r.upcoming = e.random.upcoming) (word : UInt16) :
    Transition.Alike Twins (e.run word) ((e.withRandom r).run word) := by
  obtain ⟨machine, abort, later⟩ := Instruction.execute_of_upcoming same (Instruction.decode word)
    e.dialect e.policy e.machine.pc e.machine.skip
  simp only [run, withRandom]
  generalize Instruction.execute _ _ _ _ r _ = o' at machine abort later ⊢
  generalize Instruction.execute _ _ _ _ e.random _ = o at machine abort later ⊢
  obtain ⟨m, r₁, ending⟩ := o
  obtain ⟨m', r₁', ending'⟩ := o'
  cases machine
  cases abort
  cases ending with
  | none => exact .intro ⟨r₁', later, rfl⟩
  | some abort => cases abort <;> exact .intro ⟨r₁', later, rfl⟩

/-- Engines whose sources have the same bytes ahead are in step for ever. -/
lemma inStep_twins : InStep Twins fun _ => False where
  machine := by rintro e - ⟨r, -, rfl⟩; rfl
  fault := by rintro e - ⟨r, -, rfl⟩; rfl
  executed := by rintro e - ⟨r, -, rfl⟩; rfl
  change := by rintro e - m f n ⟨r, same, rfl⟩; exact ⟨r, same, rfl⟩
  hook := by rintro e - on ⟨r, same, rfl⟩; exact ⟨r, same, rfl⟩
  run := by rintro e - word ⟨r, same, rfl⟩ -; exact run_withRandom same word
  lasts := ⟨id, id, fun _ _ => id, id⟩
  ended_hook _ := id
  ended_halted := False.elim

end Engine

/-- Programs with the same bytes are the same. -/
lemma Rom.eq_of_bytes {rom rom' : Rom} (same : rom.bytes = rom'.bytes) : rom = rom' := by
  cases rom
  cases rom'
  congr

namespace Action

/-- The bytes that an action loads, unless they are too many for a program. -/
def accepted? : Action → Option (List UInt8)
  | .load bytes => if bytes.length ≤ Rom.maxSize then some bytes else none
  | _ => none

/-- The program that a new session has loaded after some actions: the last one that was accepted,
and no bytes if there was none. -/
def lastProgram (acts : List Action) : List UInt8 := (acts.filterMap accepted?).getLast?.getD []

end Action

namespace Session

variable {s s' : Session} {a : Action}

/-- The session with another source of random bytes. -/
def withRandom (s : Session) (random : RandomSource) : Session :=
  s.withEngine (s.engine.withRandom random)

/-- Sessions that differ at most in how many random bytes they have drawn, with the same still to be
drawn. -/
def Twins (s s' : Session) : Prop :=
  ∃ r, r.upcoming = s.engine.random.upcoming ∧ s' = s.withRandom r

/-- Sessions that no further actions tell apart: whatever is done to both, the results are the same,
what can be seen is the same, and they stay the same but for the random bytes drawn. -/
def SameFuture (s s' : Session) : Prop :=
  ∀ acts a, Transition.Alike Twins ((s.after acts).act a) ((s'.after acts).act a)

/-- A fresh engine has the source that it is given. -/
lemma random_freshEngine (settings : Settings) (tracing : Tracing) (memory : Memory)
    (random : RandomSource) : (freshEngine settings tracing memory random).random = random := rfl

/-- Booting does not draw from the source. -/
lemma random_boot (s : Session) (rom : Rom) : (s.boot rom).engine.random = s.engine.random := by
  rw [boot, random_freshEngine]

/-- A program is booted in the same way with every source. -/
lemma boot_withRandom (s : Session) (r : RandomSource) (rom : Rom) :
    (s.withRandom r).boot rom = (s.boot rom).withRandom r := by
  rw [boot, boot]
  generalize Memory.powerOn.load rom = memory
  rfl

/-- Programs that are booted with the same bytes ahead are twins. -/
lemma twins_boot {r : RandomSource} (same : r.upcoming = s.engine.random.upcoming) (rom : Rom) :
    (s.boot rom).Twins ((s.withRandom r).boot rom) := by
  rw [boot_withRandom]
  exact ⟨r, by rw [same, random_boot], rfl⟩

/-- Twins stay so whatever is done to both. -/
lemma twins_act (twins : s.Twins s') (a : Action) :
    Transition.Alike Twins (s.act a) (s'.act a) := by
  obtain ⟨r, same, rfl⟩ := twins
  by_cases keeps : a.KeepsPolicy
  · have related : s.engine.Twins (s.withRandom r).engine := ⟨r, same, rfl⟩
    have alike := Engine.inStep_twins.act keeps related rfl not_false
    have still := s.act_eq_withEngine keeps.keepsProgram
    have still' := (s.withRandom r).act_eq_withEngine keeps.keepsProgram
    generalize s.act a = t at alike still ⊢
    generalize (s.withRandom r).act a = t' at alike still' ⊢
    cases alike with
    | @intro s₁ s₁' _ _ related =>
      obtain ⟨r', later, equal⟩ := related
      refine .intro ⟨r', later, ?_⟩
      calc
        s₁' = s.withEngine s₁'.engine := still'
        _ = (s.withEngine s₁.engine).withEngine (s₁.engine.withRandom r') := by rw [equal]; rfl
        _ = s₁.withRandom r' := by rw [← show s₁ = s.withEngine s₁.engine from still]; rfl
  · cases a with
    | load bytes =>
      cases fits : Rom.ofBytes bytes with
      | error =>
        rw [act_load_refused fits, act_load_refused fits]
        exact .intro ⟨r, same, rfl⟩
      | ok rom =>
        rw [act_load fits, act_load fits]
        exact .intro (twins_boot same rom)
    | reset => exact .intro (twins_boot same s.rom)
    | setPolicy => exact .intro ⟨r, same, rfl⟩
    | _ => exact absurd trivial keeps

/-- Twins have the same future. -/
lemma Twins.sameFuture (twins : s.Twins s') : s.SameFuture s' := by
  intro acts a
  induction acts generalizing s s' with
  | nil => exact twins_act twins a
  | cons b rest ih =>
    have alike := twins_act twins b
    rw [after, after]
    generalize s.act b = t at alike ⊢
    generalize s'.act b = t' at alike ⊢
    cases alike with
    | intro twins => exact ih twins

/-- The program is the last one that was accepted. -/
lemma rom_act (s : Session) (a : Action) :
    (s.act a).state.rom.bytes = a.accepted?.getD s.rom.bytes := by
  by_cases keeps : a.KeepsProgram
  · rw [act_eq_withEngine keeps]
    cases a with
    | load | reset => exact keeps.elim
    | _ => rfl
  · cases a with
    | load bytes =>
      by_cases fits : bytes.length ≤ Rom.maxSize
      · have loaded : Rom.ofBytes bytes = .ok ⟨bytes, fits⟩ := dif_pos fits
        rw [act_load loaded, Action.accepted?, if_pos fits]
        rfl
      · have refused : Rom.ofBytes bytes = .error (.tooLarge bytes.length) := dif_neg fits
        rw [act_load_refused refused, Action.accepted?, if_neg fits]
        rfl
    | reset => rfl
    | _ => exact absurd trivial keeps

/-- A session keeps the last program that it accepted. -/
lemma rom_after (s : Session) (acts : List Action) :
    (s.after acts).rom.bytes = (acts.filterMap Action.accepted?).getLast?.getD s.rom.bytes := by
  induction acts generalizing s with
  | nil => rfl
  | cons a rest ih =>
    rw [after, ih, rom_act, List.filterMap_cons]
    cases a.accepted? with
    | none => rfl
    | some bytes => rw [List.getLast?_cons, Option.getD_some, Option.getD_some]

/-- A new start depends on nothing but settings, program and random bytes. -/
lemma boot_eq_withRandom (settings : s'.settings = s.settings) (tracing : s'.tracing = s.tracing)
    (rom : Rom) : s'.boot rom = (s.boot rom).withRandom s'.engine.random := by
  rw [boot, boot, settings, tracing]
  generalize Memory.powerOn.load rom = memory
  rfl

variable {settings : Settings} {tracing : Tracing} {random random' source : RandomSource}
  {acts acts' : List Action} {fresh : Session}

/-- Bytes are loaded if and only if they are those of a program, which is then booted. -/
lemma load_eq_ok_iff {bytes : List UInt8} :
    s.load bytes = (s', .ok ()) ↔ ∃ rom : Rom, rom.bytes = bytes ∧ s' = s.boot rom := by
  constructor
  · intro loaded
    cases fits : Rom.ofBytes bytes with
    | error =>
      rw [load_refused fits] at loaded
      cases loaded
    | ok rom =>
      rw [load_fits fits] at loaded
      cases loaded
      exact ⟨rom, Rom.ofBytes_eq_ok_iff.1 fits, rfl⟩
  · rintro ⟨rom, program, rfl⟩
    exact load_fits (Rom.ofBytes_eq_ok_iff.2 program)

/-- The program that was accepted last can be loaded into a new session. -/
lemma load_lastProgram (settings : Settings) (tracing : Tracing) (source : RandomSource)
    (acts : List Action) :
    ∃ fresh, (start settings tracing source).load (Action.lastProgram acts) = (fresh, .ok ()) :=
  ⟨_, load_eq_ok_iff.2 ⟨_, rom_after (start settings tracing source) acts, rfl⟩⟩

/-- A reset has the same effect as loading the last program into a new session. -/
lemma reset_after
    (loaded : (start settings tracing source).load (Action.lastProgram acts) = (fresh, .ok ()))
    (random : RandomSource) :
    ∃ r, ((start settings tracing random).after acts).reset = fresh.withRandom r := by
  obtain ⟨rom, program, rfl⟩ := load_eq_ok_iff.1 loaded
  obtain ⟨same, same'⟩ := configuration_after (start settings tracing random) acts
  have kept : ((start settings tracing random).after acts).rom = rom :=
    Rom.eq_of_bytes ((rom_after (start settings tracing random) acts).trans program.symm)
  refine ⟨((start settings tracing random).after acts).engine.random, ?_⟩
  rw [reset, kept]
  exact boot_eq_withRandom same same' rom

/-- Two histories of a session with the same last program. A reset leaves nothing of either but the
position in the stream of random bytes: the session is a new one in which that program was loaded.
Where the random bytes still to be drawn are the same, no further actions tell these sessions apart,
neither by their states nor by results and faults. -/
theorem reset_forgets (same : Action.lastProgram acts = Action.lastProgram acts')
    (settings : Settings) (tracing : Tracing) (random random' source : RandomSource) :
    let s := ((start settings tracing random).after acts).reset
    let s' := ((start settings tracing random').after acts').reset
    ∃ fresh, (start settings tracing source).load (Action.lastProgram acts) = (fresh, .ok ()) ∧
      s = fresh.withRandom s.engine.random ∧ s' = fresh.withRandom s'.engine.random ∧
      ∀ t ∈ [s, s', fresh], ∀ t' ∈ [s, s', fresh],
        t'.engine.random.upcoming = t.engine.random.upcoming → t.SameFuture t' := by
  intro s s'
  obtain ⟨fresh, loaded⟩ := load_lastProgram settings tracing source acts
  obtain ⟨r, first⟩ : ∃ r, s = fresh.withRandom r := reset_after loaded random
  obtain ⟨r', second⟩ : ∃ r, s' = fresh.withRandom r := reset_after (same ▸ loaded) random'
  clear_value s s'
  subst first second
  refine ⟨fresh, loaded, rfl, rfl, ?_⟩
  -- All three are the new session but for the random bytes.
  have copy : ∀ t ∈ [fresh.withRandom r, fresh.withRandom r', fresh],
      t = fresh.withRandom t.engine.random := by
    simp only [List.forall_mem_cons, List.not_mem_nil, false_imp_iff, implies_true, and_true]
    exact ⟨rfl, rfl, rfl⟩
  intro t member t' member' upcoming
  refine Twins.sameFuture ⟨t'.engine.random, upcoming, ?_⟩
  rw [copy t member, copy t' member']
  rfl

/-- What was loaded before the last program does not count, nor what was refused after it. -/
theorem reset_forgets_refused :
    ∃ bytes fresh, Rom.maxSize < bytes.length ∧
      (start {} .off (.cycle [5])).load [0xC0, 0xFF] = (fresh, .ok ()) ∧
      ((start {} .off (.cycle [5])).after
        [.load [0x12, 0x00], .load [0xC0, 0xFF], .load bytes]).reset.SameFuture fresh := by
  obtain ⟨bytes, tooMany⟩ : ∃ bytes : List UInt8, Rom.maxSize < bytes.length :=
    ⟨List.replicate 3585 0, by rw [List.length_replicate]; decide⟩
  have refused : Rom.ofBytes bytes = .error (.tooLarge bytes.length) :=
    dif_neg (Nat.not_le_of_lt tooMany)
  have program : Action.lastProgram [.load [0x12, 0x00], .load [0xC0, 0xFF], .load bytes] =
      [0xC0, 0xFF] := by
    simp only [Action.lastProgram, List.filterMap_cons, Action.accepted?,
      if_neg (Nat.not_le_of_lt tooMany)]
    rfl
  obtain ⟨fresh, loaded, -, -, future⟩ :=
    reset_forgets (program.trans (show _ = Action.lastProgram [.load [0xC0, 0xFF]] from rfl)) {}
      .off (.cycle [5]) (.cycle [5]) (.cycle [5])
  rw [program] at loaded
  refine ⟨bytes, fresh, tooMany, loaded, future _ (by simp) _ (by simp) ?_⟩
  -- Neither history has drawn a byte.
  obtain ⟨rom, -, rfl⟩ := load_eq_ok_iff.1 loaded
  have other : Rom.ofBytes [0x12, 0x00] = .ok ⟨[0x12, 0x00], by decide⟩ := rfl
  have admitted : Rom.ofBytes [0xC0, 0xFF] = .ok ⟨[0xC0, 0xFF], by decide⟩ := rfl
  simp only [random_boot, reset, after, act_load other, act_load admitted, act_load_refused refused,
    quietly]

end Session

end Chip8
