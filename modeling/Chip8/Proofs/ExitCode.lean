import Chip8.Proofs.Arguments
import Chip8.Proofs.Prefix
/-!
# The exit code of a run

`RunRom.Exits` lists the ways in which a call of the program can come to an end, with their exit
codes. Every call that ends goes in one of them, so that they decide the exit code
(`exits_iff_code`). The run of a program file that fits ends, if it does, with a jump to itself, a
fault or the bound on the frames. An exit code of two stands for arguments that are not understood
and for a file of an unsuitable size. A file that cannot be read and settings that are not valid
count as errors that nothing has handled, with an exit code of one.
-/

namespace Chip8

/-- Without a condition no run ends by it. -/
lemma RunReport.Passes.ending_ne_stopped {plan : RunPlan} {r₀ r : RunReport} {n : Nat}
    (h : Passes plan r₀ n r) (start : r₀.ending ≠ .stopped) (free : plan.stopWhen = none) :
    r.ending ≠ .stopped := by
  cases h with
  | refl => exact start
  | @next n r₁ _ _ going _ next =>
    cases next with
    | stopped _ _ _ given =>
      rw [free] at given
      cases given
    | faulted | spinning => exact RunEnd.noConfusion
    | unasked | asked =>
      change r₁.ending ≠ .stopped
      rw [going]
      exact RunEnd.noConfusion

/-- Without events and a condition, a program that runs to an end has a report. -/
lemma report_of_runRom {settings : Settings} {tracing : Tracing} {random : RandomSource} {rom : Rom}
    {maxFrames : Number} {ended : Except Error RunReport}
    (ran : runRom settings tracing random rom.bytes ⟨maxFrames, [], none⟩ = some ended) :
    ∃ report, ended = .ok report ∧ report.ending ≠ .stopped := by
  have sound : RunPlan.IsSound ⟨maxFrames, [], none⟩ := by
    refine ⟨fun event member => ?_, fun stop some_ => ?_⟩
    · cases member
    · cases some_
  obtain ⟨report, n, rfl, passes, -⟩ := exists_report sound ran
  exact ⟨report, rfl, passes.ending_ne_stopped RunEnd.noConfusion rfl⟩

namespace RunRom

variable {host : Host} {arguments : List String} {r : Request} {report : RunReport} {n : Nat}

/-- A call asks for something if its arguments are understood and a program file is named. -/
structure Understood (host : Host) (arguments : List String) (r : Request) : Prop where
  asks : Asks host.cwd (.ofEnvironment host.environment) arguments r
  named : r.rom ≠ ""

/-- A call that is understood asks for what it says. -/
lemma Understood.request_eq (h : Understood host arguments r) :
    request host.cwd host.environment arguments = .ok r :=
  request_eq_ok_iff.2 ⟨h.asks, h.named⟩

/-- A request is met up to a report if its program file can be read and fits, the settings are
valid, and the run gives the report. -/
structure Met (host : Host) (r : Request) (bytes : List UInt8) (settings : Settings)
    (report : RunReport) : Prop where
  found : host.readFile (host.cwd.resolve r.rom) = .ok bytes
  some_ : 1 ≤ bytes.length
  fits : bytes.length ≤ 3584
  valid : Settings.resolve r.options host.environment = .ok settings
  ran : runRom settings (.ofTexts host.environment.trace host.environment.traceWindow) host.random
    bytes ⟨r.frames, [], none⟩ = some (.ok report)

/-- Whether a picture of the last screen can be stored, if one is asked for. -/
def Stores (host : Host) (r : Request) (report : RunReport) : Prop :=
  ∀ path, r.picture = some path →
    ∃ picture, pictureFile host path r.scale report.session.machine.screen = .ok picture

/-- The ways in which a call can come to an end, with the exit code. -/
inductive Exits (host : Host) (arguments : List String) : Nat → Prop where
  | misused :
    (∀ r, ¬ Understood host arguments r) →
    Exits host arguments 2
  | unfit {r bytes} :
    Understood host arguments r →
    host.readFile (host.cwd.resolve r.rom) = .ok bytes →
    bytes.length = 0 ∨ 3584 < bytes.length →
    Exits host arguments 2
  | unread {r e} :
    Understood host arguments r →
    host.readFile (host.cwd.resolve r.rom) = .error e →
    Exits host arguments 1
  | unset {r bytes e} :
    Understood host arguments r →
    host.readFile (host.cwd.resolve r.rom) = .ok bytes →
    1 ≤ bytes.length →
    bytes.length ≤ 3584 →
    Settings.resolve r.options host.environment = .error e →
    Exits host arguments 1
  | unstored {r bytes settings report} :
    Understood host arguments r →
    Met host r bytes settings report →
    ¬ Stores host r report →
    Exits host arguments 1
  | faulted {r bytes settings report fault} :
    Understood host arguments r →
    Met host r bytes settings report →
    Stores host r report →
    report.ending = .faulted fault →
    Exits host arguments 1
  | finished {r bytes settings report} :
    Understood host arguments r →
    Met host r bytes settings report →
    Stores host r report →
    report.ending = .spinning ∨ report.ending = .timeout →
    Exits host arguments 0

/-- A call that is not understood has an exit code of two. -/
lemma run_of_misused (h : ∀ r, ¬ Understood host arguments r) :
    ∃ t, run host arguments = some t ∧ t.code = 2 := by
  rw [run]
  cases asked : request host.cwd host.environment arguments with
  | error message => exact ⟨_, rfl, rfl⟩
  | ok r =>
    obtain ⟨asks, named⟩ := request_eq_ok_iff.1 asked
    exact absurd ⟨asks, named⟩ (h r)

/-- A call that is understood is performed. -/
lemma Understood.run_eq (h : Understood host arguments r) :
    run host arguments = perform host r := by
  rw [run, h.request_eq]

/-- A call whose program is met and run to its end is concluded with the report. -/
lemma Met.perform_eq {bytes : List UInt8} {settings : Settings}
    (h : Met host r bytes settings report) : perform host r = some (conclude host r report) := by
  simp only [perform, Host.readRom_of_fits h.found h.some_ h.fits, h.valid, h.ran]

/-- A call whose output cannot be stored has an exit code of one. -/
lemma code_of_not_stores (h : ¬ Stores host r report) : (conclude host r report).code = 1 := by
  obtain ⟨path, given, refused⟩ : ∃ path, r.picture = some path ∧
      ∀ picture, pictureFile host path r.scale report.session.machine.screen ≠ .ok picture := by
    simpa [Stores] using h
  rw [conclude, given]
  cases stored : pictureFile host path r.scale report.session.machine.screen with
  | error e =>
    simp only [stored]
    rfl
  | ok picture => exact absurd stored (refused picture)

/-- A call whose output is stored has the exit code of how the run ended. -/
lemma code_of_stores (h : Stores host r report) : (conclude host r report).code =
    match report.ending with
    | .faulted _ => 1
    | _ => 0 := by
  rw [conclude]
  cases given : r.picture with
  | none => rfl
  | some path =>
    obtain ⟨picture, stored⟩ := h path given
    simp only [stored]
    rfl

/-- A way in which a call comes to an end decides the exit code. -/
lemma Exits.run_eq (h : Exits host arguments n) :
    ∃ t, run host arguments = some t ∧ t.code = n := by
  cases h with
  | misused never => exact run_of_misused never
  | unfit asked found misfit =>
    obtain ⟨e, refused⟩ := Host.readRom_of_misfit found misfit
    rw [asked.run_eq, perform, refused]
    exact ⟨_, rfl, rfl⟩
  | unread asked lost =>
    rw [asked.run_eq, perform, Host.readRom_of_unread lost]
    exact ⟨_, rfl, rfl⟩
  | unset asked found some_ fits invalid =>
    rw [asked.run_eq, perform, Host.readRom_of_fits found some_ fits]
    simp only [invalid]
    exact ⟨_, rfl, rfl⟩
  | unstored asked met refused =>
    rw [asked.run_eq, met.perform_eq]
    exact ⟨_, rfl, code_of_not_stores refused⟩
  | faulted asked met stores ending =>
    rw [asked.run_eq, met.perform_eq]
    exact ⟨_, rfl, by rw [code_of_stores stores, ending]⟩
  | finished asked met stores ending =>
    rw [asked.run_eq, met.perform_eq]
    refine ⟨_, rfl, ?_⟩
    rw [code_of_stores stores]
    obtain ending | ending := ending <;> rw [ending]

/-- Every call that ends goes in one of the ways. -/
lemma exists_exits {t : Transcript} (ran : run host arguments = some t) :
    ∃ n, Exits host arguments n := by
  by_cases never : ∀ r, ¬ Understood host arguments r
  · exact ⟨2, .misused never⟩
  obtain ⟨r, asked⟩ := Classical.not_forall_not.1 never
  cases found : host.readFile (host.cwd.resolve r.rom) with
  | error e => exact ⟨1, .unread asked found⟩
  | ok bytes =>
    by_cases misfit : bytes.length = 0 ∨ 3584 < bytes.length
    · exact ⟨2, .unfit asked found misfit⟩
    have some_ : 1 ≤ bytes.length := by omega
    have fits : bytes.length ≤ 3584 := by omega
    cases valid : Settings.resolve r.options host.environment with
    | error e => exact ⟨1, .unset asked found some_ fits valid⟩
    | ok settings =>
      simp only [asked.run_eq, perform, Host.readRom_of_fits found some_ fits, valid] at ran
      cases played : runRom settings
        (.ofTexts host.environment.trace host.environment.traceWindow) host.random bytes
        ⟨r.frames, [], none⟩ with
      | none =>
        rw [played] at ran
        cases ran
      | some ended =>
        obtain ⟨report, rfl, other⟩ := @report_of_runRom _ _ _ ⟨bytes, fits⟩ _ _ played
        have met : Met host r bytes settings report := ⟨found, some_, fits, valid, played⟩
        by_cases stores : Stores host r report
        · cases ending : report.ending with
          | spinning => exact ⟨0, .finished asked met stores (.inl ending)⟩
          | timeout => exact ⟨0, .finished asked met stores (.inr ending)⟩
          | faulted fault => exact ⟨1, .faulted asked met stores ending⟩
          | stopped => exact absurd ending other
        · exact ⟨1, .unstored asked met stores⟩

/-- The exit code of a call is that of the way in which it comes to an end, if it does. -/
theorem exits_iff_code :
    Exits host arguments n ↔ ∃ t, run host arguments = some t ∧ t.code = n := by
  constructor
  · exact Exits.run_eq
  · rintro ⟨t, ran, rfl⟩
    obtain ⟨n, exits⟩ := exists_exits ran
    obtain ⟨t', ran', code⟩ := exits.run_eq
    rw [ran] at ran'
    cases ran'
    rwa [code]

/-- A program file that does not exist does not give an exit code of two. -/
theorem code_run_missing :
    (run ⟨⟨[]⟩, fun _ => none, {}, .cycle [], 0⟩ ["--rom=missing.ch8"]).map (·.code) = some 1 := by
  decide

end RunRom

end Chip8
