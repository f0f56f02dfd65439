import Chip8.Command.TraceRom
import Chip8.Proofs.Faults
import Chip8.Proofs.Frames
/-!
# What a trace prints

A trace prints a line for each instruction that it fetches, before the instruction is executed.
`Session.traced` lists the sessions in which the instructions begin, and `Session.traceLines` what
is printed of them. As long as the program neither waits for a key nor faults, the loop of a trace
goes through these sessions (`traceLoop_comes`). How it ends is said by `run_reports`. A key that is
waited for and a fault of an instruction are told in a last line of the standard output. But an
instruction that cannot be fetched is not told there: the trace reads it before the engine does, and
fails on its own account. A trace that is to be longer than its loop can count goes on until the
program waits or faults, for ever if it does neither.
-/

namespace Chip8

namespace Engine

variable {e : Engine}

/-- The line for a word that is found at the program counter. -/
def lineOf (e : Engine) (word : UInt16) : String :=
  traceLine e.machine.pc.number (.finite word.toNat) (Instruction.decode word).mnemonic
    (Instruction.decode word).operand e.machine.snapshot

/-- The line for a word that can be fetched. -/
lemma upcomingLine_of_fetched {word : UInt16} (fetched : e.machine.wordAt e.machine.pc = .ok word) :
    e.upcomingLine = .ok (e.lineOf word) := by
  rw [upcomingLine, instructionAt, fetched]
  rfl

/-- There is no line for a word that cannot be fetched. -/
lemma upcomingLine_of_unfetched {fault : MachineFault}
    (unfetched : e.machine.wordAt e.machine.pc = .error fault) :
    e.upcomingLine = .error fault := by
  rw [upcomingLine, instructionAt, unfetched]
  rfl

/-- Without tracing a step prints nothing. -/
lemma lines_step (off : e.tracing = .off) : e.step.observed.lines = #[] := by
  have nothing (pc : Place) (word : UInt16) (ins : Instruction) :
      (e.observe pc word ins).lines = #[] := by
    simp only [observe, off, Tracing.shows, Tracing.off, Bool.false_and, Bool.false_eq_true,
      if_false]
    split <;> rfl
  have way := e.step_stepped
  generalize e.step = t at way
  cases way with
  | halted | polled | unfetched => rfl
  | completed | stopped => exact nothing ..

/-- Steps do not change the tracing. -/
lemma tracing_step (e : Engine) : e.step.state.tracing = e.tracing := by
  have way := e.step_stepped
  generalize e.step = t at way
  cases way with
  | @polled target =>
    simp only [poll]
    split <;> rfl
  | _ => rfl

end Engine

namespace Session

variable {s : Session} {n : Nat}

/-- The session after an instruction with some others before it, and after a tick of the timers if
it completes a frame. -/
def instructed (s : Session) (before : Nat) : Session := TraceRom.tickAfter before s.step.state

/-- The session in which an instruction of a trace begins, the number of those before it being
given. -/
def traced (s : Session) : Nat → Session
  | 0 => s
  | n + 1 => (s.traced n).instructed n

/-- The lines for those of the first instructions of a trace that can be fetched. -/
def traceLines (s : Session) (n : Nat) : List String :=
  (List.range n).filterMap fun k => (s.traced k).engine.upcomingLine.toOption

/-- Whether a session is at an instruction that can be executed. -/
def GoesOn (s : Session) : Prop := s.machine.keyWait = none ∧ s.step.result = .ok ()

/-- A running session in which nothing is traced. -/
def IsUntraced (s : Session) : Prop := s.engine.fault = none ∧ s.engine.tracing = .off

/-- An instruction that goes on leaves an engine that runs. -/
lemma running_instructed (running : s.engine.fault = none) (on : s.GoesOn) :
    (s.instructed n).engine.fault = none := by
  have stepped : s.step.state.engine.fault = none := Engine.running_step running on.2
  rw [instructed, TraceRom.tickAfter]
  split <;> exact stepped

/-- Instructions that go on leave an engine that runs. -/
lemma running_traced (running : s.engine.fault = none) (on : ∀ k < n, (s.traced k).GoesOn) :
    (s.traced n).engine.fault = none := by
  induction n with
  | zero => exact running
  | succ n ih =>
    have before := ih fun k less => on k (Nat.lt_succ_of_lt less)
    exact running_instructed before (on n (Nat.lt_succ_self n))

/-- A trace does not change the tracing. -/
lemma tracing_traced (s : Session) (n : Nat) :
    (s.traced n).engine.tracing = s.engine.tracing := by
  induction n with
  | zero => rfl
  | succ n ih =>
    have stepped := (Engine.tracing_step (s.traced n).engine).trans ih
    rw [traced, instructed, TraceRom.tickAfter]
    split <;> exact stepped

/-- A session without tracing stays so in a trace. -/
lemma IsUntraced.traced (h : s.IsUntraced) (on : ∀ k < n, (s.traced k).GoesOn) :
    (s.traced n).IsUntraced :=
  ⟨running_traced h.1 on, (tracing_traced s n).trans h.2⟩

/-- An instruction that is executed has been fetched. -/
lemma GoesOn.fetched (running : s.engine.fault = none) (on : s.GoesOn) :
    ∃ word, s.machine.wordAt s.machine.pc = .ok word := by
  have way := s.engine.step_stepped
  have done : s.engine.step.result = .ok () := on.2
  generalize s.engine.step = t at way done
  cases way with
  | halted stopped => rw [running] at stopped; cases stopped
  | polled _ waits => rw [show s.engine.machine.keyWait = none from on.1] at waits; cases waits
  | unfetched | stopped => cases done
  | completed _ _ fetched => exact ⟨_, fetched⟩

/-- One line more is printed for the next instruction. -/
lemma traceLines_succ {word : UInt16}
    (fetched : (s.traced n).machine.wordAt (s.traced n).machine.pc = .ok word) :
    s.traceLines (n + 1) = s.traceLines n ++ [(s.traced n).engine.lineOf word] := by
  rw [traceLines, List.range_succ, List.filterMap_append, ← traceLines]
  congr 1
  rw [List.filterMap_cons, Engine.upcomingLine_of_fetched fetched]
  rfl

/-- There is one line for each instruction. -/
lemma length_traceLines (h : s.IsUntraced) (on : ∀ k < n, (s.traced k).GoesOn) :
    (s.traceLines n).length = n := by
  induction n with
  | zero => rfl
  | succ n ih =>
    have before : ∀ k < n, (s.traced k).GoesOn := fun k less => on k (Nat.lt_succ_of_lt less)
    obtain ⟨word, fetched⟩ := (on n (Nat.lt_succ_self n)).fetched (h.traced before).1
    rw [traceLines_succ fetched, List.length_append, ih before]
    rfl

end Session

namespace Transcript

/-- A program that has printed lines to the standard output, and nothing else. -/
def ofLines (lines : List String) : Transcript := ⟨(lines.map (Stream.out, ·)).toArray, 0, []⟩

/-- A line is printed behind the others. -/
lemma print_ofLines (lines : List String) (line : String) :
    (ofLines lines).print .out line = ofLines (lines ++ [line]) := by
  simp [ofLines, print]

/-- There is nothing to print. -/
lemma printAll_nothing (t : Transcript) : t.printAll #[] = t := rfl

end Transcript

namespace TraceRom

open Number (counted)

variable {s : Session} {t : Transcript} {n : Nat} {count : Number}

/-- The count of the loop is all that a tick depends on. -/
lemma tickAfter_counted (n : Nat) (s : Session) : tickAfter (counted n) s = tickAfter n s := by
  rw [tickAfter, tickAfter, Number.counted_counted_add_one]

/-- What a trace does at an instruction that can be fetched. -/
lemma traceStep_of_fetched (h : s.IsUntraced) (awake : s.machine.keyWait = none) {word : UInt16}
    (fetched : s.machine.wordAt s.machine.pc = .ok word) :
    traceStep (counted n) s t =
      match s.step.result with
      | .ok () => .next (s.instructed n, t.print .out (s.engine.lineOf word))
      | .error (.stopped fault) =>
        .done (((t.print .out (s.engine.lineOf word)).print .out ("-- " ++ fault.message)).exit 1)
      | .error e => .done ((t.print .out (s.engine.lineOf word)).fail e) := by
  have silent : s.step.observed.lines = #[] := Engine.lines_step h.2
  rw [traceStep, awake, Engine.upcomingLine_of_fetched fetched, Session.instructed]
  simp only [Option.isSome_none, Bool.false_eq_true, if_false]
  generalize s.step = stepped at silent ⊢
  obtain ⟨s', result, seen⟩ := stepped
  change seen.lines = #[] at silent
  cases result with
  | ok => simp only [silent, Transcript.printAll_nothing, tickAfter_counted]
  | error e => cases e <;> simp only [silent, Transcript.printAll_nothing]

/-- The loop of a trace goes through the sessions of the trace. -/
lemma traceLoop_comes (h : s.IsUntraced) (allows : count.Allows n)
    (on : ∀ k < n, (s.traced k).GoesOn) :
    (traceLoop count).Comes (s, .empty) n (s.traced n, .ofLines (s.traceLines n)) := by
  induction n with
  | zero => exact .start
  | succ n ih =>
    have before : ∀ k < n, (s.traced k).GoesOn := fun k less => on k (Nat.lt_succ_of_lt less)
    have last := on n (Nat.lt_succ_self n)
    obtain ⟨word, fetched⟩ := last.fetched (h.traced before).1
    refine (ih (allows.mono (Nat.le_succ n)) before).next (allows n (Nat.lt_succ_self n)) ?_
    refine congrArg some ((traceStep_of_fetched (h.traced before) last.1 fetched).trans ?_)
    rw [last.2, Transcript.print_ofLines, ← Session.traceLines_succ fetched]
    rfl

/-- A trace that has come to its bound has printed the lines of its instructions. -/
lemma traceLoop_of_reached (h : s.IsUntraced) (allows : count.Allows n)
    (below : count.isAbove (counted n) = false) (on : ∀ k < n, (s.traced k).GoesOn) :
    (traceLoop count).run (s, .empty) = some (.ofLines (s.traceLines n)) :=
  (Loop.Ends.reached (traceLoop_comes h allows on) below).run_eq

/-- A trace whose bound is not reached goes on for ever unless the program waits or fails. -/
lemma traceLoop_of_endless (h : s.IsUntraced) (endless : count.isReached = false)
    (on : ∀ k, (s.traced k).GoesOn) : (traceLoop count).run (s, .empty) = none :=
  Loop.run_eq_none fun n => ⟨_, traceLoop_comes (n := n) h
    (fun m _ => Number.isAbove_counted_of_not_isReached endless m) fun k _ => on k⟩

/-- The last line of a trace that has come to a wait for a key. -/
def waitingLine : String := "-- waiting for key; trace stops"

/-- The last line of a trace in which an instruction has failed. -/
def faultLine (fault : Fault) : String := "-- " ++ fault.message

section

variable (h : s.IsUntraced) (more : count.isAbove (counted n) = true)
  (on : ∀ k < n, (s.traced k).GoesOn)
include h more on

/-- A trace ends at the first instruction of which it does not come back. -/
lemma traceLoop_of_done
    (ended : traceStep (counted n) (s.traced n) (.ofLines (s.traceLines n)) = .done t) :
    (traceLoop count).run (s, .empty) = some t :=
  (Loop.Ends.done (traceLoop_comes h (Number.allows_of_isAbove more) on) more
    (congrArg some ended)).run_eq

/-- A trace that comes to a wait tells of it and ends. -/
lemma traceLoop_of_waiting (waiting : (s.traced n).machine.keyWait.isSome) :
    (traceLoop count).run (s, .empty) = some (.ofLines (s.traceLines n ++ [waitingLine])) := by
  refine traceLoop_of_done h more on ?_
  rw [traceStep, if_pos waiting, Transcript.print_ofLines]
  rfl

/-- An instruction that fails has been printed, and its fault is the last line. -/
lemma traceLoop_of_failed {word : UInt16} {fault : Fault}
    (awake : (s.traced n).machine.keyWait = none)
    (fetched : (s.traced n).machine.wordAt (s.traced n).machine.pc = .ok word)
    (failed : (s.traced n).step.result = .error (.stopped fault)) :
    (traceLoop count).run (s, .empty) =
      some ((Transcript.ofLines (s.traceLines (n + 1) ++ [faultLine fault])).exit 1) := by
  refine traceLoop_of_done h more on ?_
  rw [traceStep_of_fetched (h.traced on) awake fetched, failed, Session.traceLines_succ fetched]
  simp only [Transcript.print_ofLines]
  rfl

/-- An instruction that cannot be fetched is not printed, and its fault is left to the standard
error. -/
lemma traceLoop_of_unfetched {fault : MachineFault} (awake : (s.traced n).machine.keyWait = none)
    (unfetched : (s.traced n).machine.wordAt (s.traced n).machine.pc = .error fault) :
    (traceLoop count).run (s, .empty) =
      some ((Transcript.ofLines (s.traceLines n)).fail (.machine fault)) := by
  refine traceLoop_of_done h more on ?_
  rw [traceStep, awake, Engine.upcomingLine_of_unfetched unfetched]
  rfl

end

/-- A call that asks for a trace of a program and not for its listing, with settings that are valid
and without the environment's own tracing. -/
structure Traces (host : Host) (arguments : List String) (bytes : List UInt8)
    (settings : Settings) : Prop where
  named : (request host.environment arguments).rom ≠ ""
  traced : (request host.environment arguments).listing = false
  found : host.readFile (host.cwd.resolve (request host.environment arguments).rom) = .ok bytes
  some_ : 1 ≤ bytes.length
  fits : bytes.length ≤ 3584
  valid : Settings.resolve {} host.environment = .ok settings
  quiet : host.environment.trace = none

variable {host : Host} {arguments : List String} {bytes : List UInt8} {settings : Settings}

/-- The bound on the instructions of the trace that a call asks for. -/
def limit (host : Host) (arguments : List String) : Number :=
  (request host.environment arguments).count

/-- A call that asks for a trace goes through the loop of the trace, from the program on. -/
lemma Traces.run_eq (call : Traces host arguments bytes settings) :
    ∃ s, (Session.start settings .off host.random).load bytes = (s, .ok ()) ∧ s.IsUntraced ∧
      run host arguments = (traceLoop (limit host arguments)).run (s, .empty) := by
  let rom : Rom := ⟨bytes, call.fits⟩
  have loaded : (Session.start settings .off host.random).load bytes =
      ((Session.start settings .off host.random).boot rom, .ok ()) :=
    Session.load_fits (Rom.ofBytes_eq_ok_iff.2 (rfl : rom.bytes = bytes))
  have read := Host.readRom_of_fits call.found call.some_ call.fits
  have off : Tracing.ofTexts host.environment.trace host.environment.traceWindow = .off := by
    rw [call.quiet]
    rfl
  refine ⟨_, loaded, ⟨rfl, rfl⟩, ?_⟩
  simp only [run, perform, if_neg call.named, read, call.traced, call.valid, trace, off, loaded]
  rfl

/-- The number of instructions is the one that is asked for, if it is at least one. -/
lemma limit_of_positive {q : Rat} (asked : (request host.environment arguments).limit = .finite q)
    (positive : 1 ≤ q) : limit host arguments = .finite q := by
  simp only [limit, Request.count, asked, if_neg (Rat.not_lt.2 positive)]

/-- If no such number is asked for, it is a thousand. -/
lemma limit_of_other
    (other : ∀ q : Rat, 1 ≤ q → (request host.environment arguments).limit ≠ .finite q) :
    limit host arguments = .finite 1000 := by
  rw [limit, Request.count]
  split
  case h_1 q asked => rw [if_pos (Rat.not_le.1 fun positive => other q positive asked)]
  case h_2 => rfl

/-- What a trace reports, the program file having between one byte and as many as fit. It prints the
lines of at most as many instructions as are asked for. If none of these waits or fails, there is
nothing else. Otherwise the last line tells of the wait, with an exit code of zero, or of the fault,
with an exit code of one. But a fault at an instruction that cannot be fetched is told on the
standard error instead. All this holds as far as the loop of the trace counts: where more than
`2 ^ 53` instructions are asked for, it goes on until one of them waits or fails. -/
theorem run_reports (call : Traces host arguments bytes settings) :
    (∀ q : Rat, 1 ≤ q → (request host.environment arguments).limit = .finite q →
      limit host arguments = .finite q) ∧
    ((∀ q : Rat, 1 ≤ q → (request host.environment arguments).limit ≠ .finite q) →
      limit host arguments = .finite 1000) ∧
    ∃ s, (Session.start settings .off host.random).load bytes = (s, .ok ()) ∧
      (∀ n, (∀ k < n, (s.traced k).GoesOn) → (s.traceLines n).length = n) ∧
      (∀ (q : Rat) (n : Nat), limit host arguments = .finite q → (n : Int) = max 0 q.ceil →
        (n ≤ 2 ^ 53 → (∀ k < n, (s.traced k).GoesOn) →
          run host arguments = some (.ofLines (s.traceLines n))) ∧
        (2 ^ 53 < n → (∀ k, (s.traced k).GoesOn) → run host arguments = none)) ∧
      ∀ n, (limit host arguments).isAbove (counted n) = true → (∀ k < n, (s.traced k).GoesOn) →
        ((s.traced n).machine.keyWait.isSome →
          run host arguments = some (.ofLines (s.traceLines n ++ [waitingLine]))) ∧
        ∀ error, (s.traced n).machine.keyWait = none →
          (s.traced n).step.result = .error error →
          ∃ fault, error = .stopped fault ∧
            (∀ word, (s.traced n).machine.wordAt (s.traced n).machine.pc = .ok word →
              run host arguments =
                some ((Transcript.ofLines (s.traceLines (n + 1) ++ [faultLine fault])).exit 1)) ∧
            ∀ refusal, (s.traced n).machine.wordAt (s.traced n).machine.pc = .error refusal →
              run host arguments =
                some ((Transcript.ofLines (s.traceLines n)).fail (.machine refusal)) := by
  obtain ⟨s, loaded, untraced, ran⟩ := call.run_eq
  refine ⟨fun q positive asked => limit_of_positive asked positive, limit_of_other,
    s, loaded, fun n on => Session.length_traceLines untraced on, ?_, ?_⟩
  · intro q n bound count
    rw [ran, bound]
    refine ⟨fun counts on => ?_, fun beyond on => ?_⟩
    · obtain ⟨allows, below⟩ := Number.allows_ceil count counts
      exact traceLoop_of_reached untraced allows below on
    · refine traceLoop_of_endless untraced ?_ on
      rw [← Bool.not_eq_true, Number.isReached_finite]
      intro reached
      have few : q.ceil ≤ (2 ^ 53 : Nat) := Rat.ceil_le_iff.2 reached
      omega
  · intro n more on
    rw [ran]
    refine ⟨traceLoop_of_waiting untraced more on, ?_⟩
    intro error awake failed
    obtain ⟨fault, rfl⟩ := Engine.error_step failed
    exact ⟨fault, rfl,
      fun word fetched => traceLoop_of_failed untraced more on awake fetched failed,
      fun refusal unfetched => traceLoop_of_unfetched untraced more on awake unfetched⟩

/-- A host with a program that jumps to the last byte of memory, where no word can be fetched. -/
def hostOfLost : Host where
  cwd := ⟨[]⟩
  entry p := if p = ⟨["lost"]⟩ then some (.file [0x1F, 0xFF]) else none
  environment := {}
  memory := 0x100000
  random := .cycle []

/-- A program that jumps to where no word can be fetched, and all that is reported of it. -/
theorem run_reports_lost : Traces hostOfLost ["lost"] [0x1F, 0xFF] {} ∧
    run hostOfLost ["lost"] = some
      ⟨#[(.out, "200  1FFF  JP $FFF          I:000 " ++
          "V:00 00 00 00 00 00 00 00 00 00 00 00 00 00 00 00 SP:0 DT:00 ST:00"),
        (.err, "MachineFault: address-out-of-range: address $1000 is outside $000-$FFF")],
        1, []⟩ := by
  have call : Traces hostOfLost ["lost"] [0x1F, 0xFF] {} :=
    ⟨by decide, by decide, by rfl, by decide, by decide, by rfl, rfl⟩
  refine ⟨call, ?_⟩
  obtain ⟨-, -, s, loaded, -, -, reports⟩ := run_reports call
  have more : (limit hostOfLost ["lost"]).isAbove (counted 1) = true := by decide +kernel
  have begins : s.Begins ⟨[0x1F, 0xFF], by decide⟩ := by
    cases loaded
    exact Session.begins_boot (.start {} .off hostOfLost.random) ⟨[0x1F, 0xFF], by decide⟩
  have fetches : s.machine.view.Fetches 0x200 0x1FFF := begins.fetches ⟨by decide, rfl⟩
  obtain ⟨done, running, view⟩ := Engine.step_of_describes begins.running begins.awake fetches
    (Instruction.describes_decode 0x1FFF) rfl
  have on : ∀ k < 1, (s.traced k).GoesOn := by
    intro k less
    obtain rfl := Nat.lt_one_iff.1 less
    exact ⟨begins.awake, done⟩
  -- The jump does not complete a frame, so no timer ticks behind it.
  have second : s.traced 1 = s.step.state := by
    have tenth : s.settings.instructionsPerFrame = .finite 10 := by
      cases loaded
      rfl
    change (if completesFrame s.settings.instructionsPerFrame (counted 1) then _ else _) = _
    rw [tenth]
    rfl
  rw [← show s.step.state.engine = s.engine.step.state from rfl, ← second] at running view
  have awake : (s.traced 1).machine.keyWait = none := (congrArg View.target view).trans begins.awake
  have unfetched : (s.traced 1).machine.wordAt (s.traced 1).machine.pc =
      .error (.addressOutOfRange (.address 0x1000)) :=
    (Machine.wordAt_pc_eq_error_iff (n := 0xFFF) ((congrArg View.pc view).trans rfl)).2
      ⟨by decide, rfl⟩
  have failed := (Engine.step_eq_error_iff running awake).2 (.inl ⟨_, unfetched, rfl, rfl⟩)
  obtain ⟨-, -, -, lost⟩ := (reports 1 more on).2 _ awake failed
  have lines : s.traceLines 1 = [s.engine.lineOf 0x1FFF] :=
    Session.traceLines_succ (Machine.wordAt_pc_eq_ok_iff.2 ⟨_, fetches⟩)
  have line : s.engine.lineOf 0x1FFF = "200  1FFF  JP $FFF          I:000 " ++
      "V:00 00 00 00 00 00 00 00 00 00 00 00 00 00 00 00 SP:0 DT:00 ST:00" := by
    cases loaded
    decide +kernel
  have report : (Error.machine (.addressOutOfRange (.address 0x1000))).report =
      "MachineFault: address-out-of-range: address $1000 is outside $000-$FFF" := by
    decide +kernel
  rw [lost _ unfetched, lines, line, Transcript.fail, report]
  rfl

end TraceRom

end Chip8
