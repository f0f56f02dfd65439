import Chip8.Proofs.Runs
import Chip8.Proofs.Waiting
/-!
# Programs that have parked

A program parks itself on a jump to its own address. Such a jump is a fixed point of the step but
for the count of instructions (`step_parked`), so that a parked engine stays as it is whatever goes
on around it (`lasts_idled`), and a frame in which a program parks ends with the program parked
(`frame_of_parked`). `runRom_spinning` draws both together: a run ends for that reason only with a
session that nothing will bring on, and always in the frame in which the program parks.
-/

namespace Chip8

namespace Engine

variable {e e' : Engine}

/-- An engine that runs at a jump to its own address. -/
def Parked (e : Engine) : Prop :=
  e.fault = none ∧ e.machine.keyWait = none ∧
    ∃ a word, e.machine.view.Fetches a word ∧ word.toNat = 0x1000 + a

/-- An engine that differs in keys, timers and the count of instructions only. -/
def Idled (e e' : Engine) : Prop :=
  ∃ pressed delay sound executed, e' = { e with
    machine := { e.machine with
      keypad := { e.machine.keypad with pressed := pressed }
      delay := delay
      sound := sound }
    executed := executed }

/-- An engine at a jump to its own address does not wait. -/
lemma WaitAgrees.awake_of_self (h : e.WaitAgrees)
    (self : ∃ a word, e.machine.view.Fetches a word ∧ word.toNat = 0x1000 + a) :
    e.machine.keyWait = none := by
  by_contra waits
  obtain ⟨x, waits⟩ := Option.ne_none_iff_exists'.1 waits
  obtain ⟨a, word, fetches, self⟩ := self
  obtain ⟨a', word', fetches', row⟩ := h.held waits
  -- The word would have to start with the digits 1 and F.
  obtain ⟨rfl, rfl⟩ := fetches.unique fetches'
  have code : 0x1000 * 0xF + 0x100 * x.val + 0x0A = word.toNat := row.1
  have inside := fetches.2.1
  omega

/-- An engine that runs at a jump to its own address is parked, and its keypad does not wait. -/
lemma WaitAgrees.parked (h : e.WaitAgrees) (running : e.fault = none)
    (self : ∃ a word, e.machine.view.Fetches a word ∧ word.toNat = 0x1000 + a) :
    e.Parked ∧ e.machine.keypad.waiting = false := by
  have awake := h.awake_of_self self
  exact ⟨⟨running, awake, self⟩, h.idle awake⟩

/-- A jump to its own address changes nothing. -/
lemma step_parked (h : e.Parked) :
    ∃ seen, e.step = ⟨{ e with executed := e.executed + 1 }, .ok (), seen⟩ := by
  obtain ⟨running, awake, a, word, fetches, self⟩ := h
  have inside : a < 4096 := Nat.lt_of_succ_lt fetches.2.1
  have row : Instruction.decode word = .jump ⟨a, inside⟩ :=
    Instruction.decode_of_code trivial self.symm
  have same : ({ e.machine.skip with pc := .address a } : Machine) = e.machine := by
    rw [← show e.machine.pc = .address a from fetches.1]
    rfl
  have done : e.completed word = { e with executed := e.executed + 1 } := by
    rw [completed, outcome, row]
    exact congrArg (fun m => { e with machine := m, executed := e.executed + 1 }) same
  have fetched := Machine.wordAt_pc_eq_ok_iff.2 ⟨a, fetches⟩
  rw [step_of_obstacle_none running awake fetched (by rw [row]; rfl), done]
  exact ⟨_, rfl⟩

/-- All steps of a parked engine leave it as it is but for the count of instructions. -/
lemma stepsFrom_parked (h : e.Parked) (seen : Observed) (n : Nat) :
    ∃ seen', e.stepsFrom seen n = ⟨{ e with executed := e.executed + n }, .ok (), seen'⟩ := by
  induction n generalizing e seen with
  | zero => exact ⟨seen, rfl⟩
  | succ n ih =>
    obtain ⟨now, step⟩ := step_parked h
    rw [stepsFrom, halted_of_running h.1]
    simp only [Bool.false_eq_true, if_false, step]
    obtain ⟨seen', rest⟩ := ih (e := { e with executed := e.executed + 1 }) h (seen ++ now)
    rw [show e.executed + (n + 1) = e.executed + 1 + n by omega]
    exact ⟨seen', rest⟩

/-- An engine idles from itself on. -/
lemma Idled.refl (e : Engine) : e.Idled e := ⟨_, _, _, _, rfl⟩

/-- An engine that idles is still parked. -/
lemma Parked.of_idled (h : e.Parked) (idled : e.Idled e') : e'.Parked := by
  obtain ⟨pressed, delay, sound, executed, rfl⟩ := idled
  exact h

/-- A parked engine idles from then on. -/
lemma lasts_idled (h : e.Parked) (idle : e.machine.keypad.waiting = false) : Lasts e.Idled where
  step idled := by
    obtain ⟨seen, step⟩ := step_parked (h.of_idled idled)
    rw [step]
    obtain ⟨pressed, delay, sound, executed, rfl⟩ := idled
    exact ⟨pressed, delay, sound, executed + 1, rfl⟩
  tick idled := by
    obtain ⟨pressed, delay, sound, executed, rfl⟩ := idled
    exact ⟨pressed, _, _, executed, rfl⟩
  -- The keypad is not armed, so that a key that goes down is not caught.
  press key down idled := by
    obtain ⟨pressed, delay, sound, executed, rfl⟩ := idled
    refine ⟨pressed.set key down, delay, sound, executed, ?_⟩
    simp only [withKeypad, withMachine, Keypad.press, idle]
    rfl
  release idled := by
    obtain ⟨pressed, delay, sound, executed, rfl⟩ := idled
    exact ⟨_, delay, sound, executed, rfl⟩

end Engine

namespace Session

variable {s s₀ : Session} {plan : RunPlan} {f : Nat}

/-- Whether the program is at a jump to itself can be told at every address. -/
lemma isSpinning_of_address {a : Nat} (at_ : s.machine.pc = .address a) :
    ∃ spinning, s.isSpinning = .ok spinning := by
  by_cases beyond : s.machine.pc.isBeyond 0xFFE = true
  · exact ⟨false, if_pos beyond⟩
  · have inside : a + 1 < 4096 := by
      rw [at_] at beyond
      simp only [Place.isBeyond, decide_eq_true_eq] at beyond
      omega
    obtain ⟨word, fetched, -⟩ := Memory.word_nat (m := s.machine.memory) inside
    have fetched : s.machine.wordAt s.machine.pc = .ok word := by
      rw [at_]
      exact fetched
    simp only [isSpinning, if_neg beyond, fetched]
    exact ⟨_, rfl⟩

/-- A program is at a jump to itself if and only if that is the word at its program counter. -/
lemma isSpinning_eq_true_iff :
    s.isSpinning = .ok true ↔
      ∃ a word, s.machine.view.Fetches a word ∧ word.toNat = 0x1000 + a := by
  rw [isSpinning]
  constructor
  · intro spinning
    split at spinning
    · cases spinning
    · cases fetched : s.machine.wordAt s.machine.pc with
      | error fault =>
        rw [fetched] at spinning
        cases spinning
      | ok word =>
        obtain ⟨a, fetches⟩ := Machine.wordAt_pc_eq_ok_iff.1 fetched
        have at_ : s.machine.pc = .address a := fetches.1
        rw [fetched, at_] at spinning
        have self : decide ((word.toNat : Int) = 0x1000 + a) = true := Except.ok.inj spinning
        refine ⟨a, word, fetches, ?_⟩
        have := of_decide_eq_true self
        omega
  · rintro ⟨a, word, fetches, self⟩
    have fetched := Machine.wordAt_pc_eq_ok_iff.2 ⟨a, fetches⟩
    have at_ : s.machine.pc = .address a := fetches.1
    have within : Place.isBeyond 0xFFE (.address a) = false := by
      have := fetches.2.1
      simp only [Place.isBeyond, decide_eq_false_iff_not]
      omega
    rw [at_] at fetched
    simp only [at_, within, Bool.false_eq_true, if_false, fetched]
    refine congrArg Except.ok (decide_eq_true ?_)
    rw [self]
    exact Int.natCast_add ..

/-- A frame in which a program parks ends with the program parked. -/
lemma frame_of_parked {k : Nat} {e : Engine} {seen : Observed} (parked : e.Parked)
    (allows : s.settings.instructionsPerFrame.Allows k)
    (steps : s.engine.steps k = ⟨e, .ok (), seen⟩)
    (reached : s.settings.instructionsPerFrame.isReached = true) :
    ∃ s' shown seen', s.frame = some ⟨s', .ok shown, seen'⟩ ∧ s'.isSpinning = .ok true := by
  obtain ⟨t, done⟩ := Option.isSome_iff_exists.1 (Engine.isSome_stepsBelow_iff.2 (.inl reached))
  obtain ⟨n, ends, rfl⟩ := Engine.stepsBelow_eq_some_iff.1 done
  have running : (s.engine.steps k).state.halted = false := by
    rw [steps]
    exact Engine.halted_of_running parked.1
  -- The steps behind the one that parks are jumps to the same address.
  obtain ⟨rest, rfl⟩ := Nat.exists_eq_add_of_le (ends.ge allows running)
  obtain ⟨seen', more⟩ := Engine.stepsFrom_parked parked seen rest
  rw [Engine.steps, Engine.stepsFrom_add steps, more] at done
  exact ⟨_, _, _, frame_of_ok done, isSpinning_eq_true_iff.2 parked.2.2⟩

/-- A frame in which a program parks has no end if its bound is not reached. -/
lemma frame_of_parked_endless {k : Nat} {e : Engine} {seen : Observed} (parked : e.Parked)
    (steps : s.engine.steps k = ⟨e, .ok (), seen⟩)
    (endless : s.settings.instructionsPerFrame.isReached = false) : s.frame = none := by
  refine frame_eq_none endless fun n => ?_
  -- Had the engine stopped, it would still have done so after `k` steps more.
  obtain ⟨seen', more⟩ := Engine.stepsFrom_parked parked seen n
  cases halted : (s.engine.steps n).state.halted with
  | false => rfl
  | true =>
    rw [← Engine.steps_of_halted halted k, Nat.add_comm, Engine.steps, Engine.stepsFrom_add steps,
      more] at halted
    exact halted.symm.trans (Engine.halted_of_running parked.1)

/-- Nothing that goes on with a parked program fails. -/
lemma act_of_parked (parked : s.engine.Parked) {a : Action} (ongoing : a.IsOngoing) :
    ∃ shown, (s.act a).result = .ok shown := by
  cases a with
  | step =>
    obtain ⟨seen, step⟩ := Engine.step_parked parked
    exact ⟨none, by simp only [act, Session.step, step]; rfl⟩
  | frame =>
    cases reached : s.settings.instructionsPerFrame.isReached with
    | true =>
      obtain ⟨s', shown, seen, done, -⟩ := frame_of_parked parked Number.allows_zero rfl reached
      exact ⟨some shown, by rw [act_frame done]; rfl⟩
    | false =>
      have endless := frame_of_parked_endless (k := 0) parked rfl reached
      exact ⟨none, by rw [act_frame_of_endless endless]; rfl⟩
  | setKey index down =>
    obtain ⟨key, known⟩ := ongoing
    exact ⟨none, by rw [act_setKey known]; rfl⟩
  | tick | releaseKeys => exact ⟨none, rfl⟩
  | _ => exact ongoing.elim

/-- A run that ends because the program parked leaves a session in which nothing fails and nothing
but keys, timers and the count of instructions ever changes again. If in a frame of a run, before or
after any of its steps, the program is at a jump to its own address, then the run ends so in that
frame, or, if counting does not come to the budget, the frame and the run go on for ever. -/
theorem runRom_spinning (settings : Settings) (tracing : Tracing) (random : RandomSource)
    (bytes : List UInt8) (plan : RunPlan) :
    (∀ report, runRom settings tracing random bytes plan = some (.ok report) →
      report.ending = .spinning →
      ∀ acts : List Action, (∀ a ∈ acts, a.IsOngoing) →
        report.session.engine.Idled (report.session.after acts).engine ∧
        ∀ a : Action, a.IsOngoing →
          ∃ shown, ((report.session.after acts).act a).result = .ok shown) ∧
    ∀ s₀, (start settings tracing random).load bytes = (s₀, .ok ()) →
      ∀ f s, FrameBegins plan s₀ f s →
      ∀ k, settings.instructionsPerFrame.Allows k →
      ∀ e seen, s.engine.steps k = ⟨e, .ok (), seen⟩ → e.fault = none →
      ∀ a word, e.machine.view.Fetches a word → word.toNat = 0x1000 ||| a →
        (settings.instructionsPerFrame.isReached = true →
          (∃ s' shown seen', s.frame = some ⟨s', .ok shown, seen'⟩) ∧
          ∃ report, runRom settings tracing random bytes plan = some (.ok report) ∧
            report.ending = .spinning ∧ report.frames = Number.counted (f + 1)) ∧
        (settings.instructionsPerFrame.isReached = false →
          s.frame = none ∧ runRom settings tracing random bytes plan = none) := by
  refine ⟨?_, ?_⟩
  · intro report ran spinning acts ongoing
    rw [runRom] at ran
    rcases loaded : (start settings tracing random).load bytes with ⟨s₀, error | _⟩
    · rw [loaded] at ran
      cases ran
    · rw [loaded] at ran
      obtain ⟨f, s, shown, seen, begins, done, self⟩ := frameBegins_of_spinning ran spinning
      have running := (begins.running (isRunning_load loaded)).frame done
      have agrees := Engine.waitAgrees_invariant.reachable running.1
      obtain ⟨parked, idle⟩ := agrees.parked running.2 (isSpinning_eq_true_iff.1 self)
      have idled := (Engine.lasts_idled parked idle).after ongoing (.refl _)
      exact ⟨idled, fun a more => act_of_parked (parked.of_idled idled) more⟩
  · intro s₀ loaded f s begins k allows e seen steps running a word fetches self
    have agrees := Engine.waitAgrees_invariant.reachable (begins.running (isRunning_load loaded)).1
    have agrees' := Engine.waitAgrees_invariant.stepsFrom agrees .none k
    rw [show s.engine.stepsFrom .none k = _ from steps] at agrees'
    have sum : 0x1000 ||| a = 0x1000 + a :=
      (Nat.two_pow_add_eq_or_of_lt (i := 12) (Nat.lt_of_succ_lt fetches.2.1) 1).symm
    obtain ⟨parked, -⟩ := agrees'.parked running ⟨a, word, fetches, self.trans sum⟩
    have settings_eq : s.settings = settings :=
      begins.settings_eq.trans (settings_load loaded)
    rw [runRom, loaded]
    refine ⟨fun reached => ?_, fun endless => ?_⟩
    · obtain ⟨s', shown, seen', done, spinning⟩ :=
        frame_of_parked parked (by rwa [settings_eq]) steps (by rwa [settings_eq])
      exact ⟨⟨s', shown, seen', done⟩, begins.play_of_spinning done spinning⟩
    · have never := frame_of_parked_endless parked steps (by rwa [settings_eq])
      exact ⟨never, begins.play_of_endless never⟩

/-- The shortest program that parks, about to begin its first frame. -/
lemma exists_self (settings : Settings) :
    ∃ s₀, (start settings .off (.cycle [])).load [0x12, 0x00] = (s₀, .ok ()) ∧
      s₀.engine.fault = none ∧ s₀.machine.view.Fetches 0x200 0x1200 ∧
      FrameBegins ⟨.finite 1, [], none⟩ s₀ 0 s₀ := by
  have begins := begins_boot (.start settings .off (.cycle [])) ⟨[0x12, 0x00], by decide⟩
  refine ⟨_, load_fits rfl, begins.running, begins.fetches ⟨by decide, rfl⟩, .initial _, .refl, ?_⟩
  exact ⟨rfl, rfl, rfl⟩

/-- The run of the shortest program that parks, and what nothing can change in the session that it
leaves. -/
theorem runRom_spinning_self :
    ∃ report, runRom {} .off (.cycle []) [0x12, 0x00] ⟨.finite 1, [], none⟩ = some (.ok report) ∧
      report.ending = .spinning ∧ report.frames = 1 ∧
      report.session.engine.Idled
        (report.session.after [.frame, .setKey (.finite 3) true]).engine := by
  obtain ⟨sound, complete⟩ := runRom_spinning {} .off (.cycle []) [0x12, 0x00] ⟨.finite 1, [], none⟩
  obtain ⟨s₀, loaded, running, fetches, begins⟩ := exists_self {}
  obtain ⟨ends, -⟩ := complete s₀ loaded 0 s₀ begins 0 Number.allows_zero s₀.engine .none rfl
    running 0x200 0x1200 fetches rfl
  obtain ⟨-, report, ran, spinning, frames⟩ := ends (by decide)
  refine ⟨report, ran, spinning, frames, (sound report ran spinning _ ?_).1⟩
  simp only [List.forall_mem_cons, List.not_mem_nil, false_imp_iff, implies_true, and_true]
  exact ⟨trivial, 3, rfl⟩

/-- A budget is accepted with which the same program never comes to the end of its first frame. -/
theorem runRom_spinning_endless :
    Settings.resolve {} { instructionsPerFrame := some "9007199254740994" } =
        .ok { instructionsPerFrame := .finite 9007199254740994 } ∧
      ∃ s₀, (start { instructionsPerFrame := .finite 9007199254740994 } .off (.cycle [])).load
          [0x12, 0x00] = (s₀, .ok ()) ∧
        FrameBegins ⟨.finite 1, [], none⟩ s₀ 0 s₀ ∧ s₀.isSpinning = .ok true ∧
        s₀.frame = none ∧
        runRom { instructionsPerFrame := .finite 9007199254740994 } .off (.cycle []) [0x12, 0x00]
          ⟨.finite 1, [], none⟩ = none := by
  refine ⟨by decide +kernel, ?_⟩
  obtain ⟨s₀, loaded, running, fetches, begins⟩ :=
    exists_self { instructionsPerFrame := .finite 9007199254740994 }
  have self : ∃ a word, s₀.machine.view.Fetches a word ∧ word.toNat = 0x1000 + a :=
    ⟨0x200, 0x1200, fetches, rfl⟩
  have agrees := Engine.waitAgrees_invariant.reachable (isRunning_load loaded).1
  have never : s₀.frame = none := by
    refine frame_of_parked_endless (k := 0) (agrees.parked running self).1 rfl ?_
    rw [settings_load loaded]
    decide +kernel
  refine ⟨s₀, loaded, begins, isSpinning_eq_true_iff.2 self, never, ?_⟩
  rw [runRom, loaded]
  exact begins.play_of_endless never

end Session

end Chip8
