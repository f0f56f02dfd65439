import Chip8.Proofs.Completions
import Chip8.Proofs.Numerals
import Chip8.Proofs.TraceReport
/-!
# What is shown of each step

A step that fetches a word shows the instruction that was about to run: the line is the one that a
tracing host prints for it beforehand, and the hook is called with what the host finds there
(`Engine.step_shows_upcoming`). It makes no difference that the program counter has moved on by
then, or what the instruction is going to do. No other step shows anything.

The window of a trace limits these lines, and nothing but these lines: that a word was passed over
is printed outside the window too (`Session.lines_in_window`). What a frame prints is what its steps
print (`Session.lines_unrolled`).
-/

namespace Chip8

namespace Tracing

variable {window : String} {a b count : Nat}

/-- Whether a text consists of the decimal digits of two numbers with a dash between them. -/
def Limits (window : String) (a b : Nat) : Prop :=
  ∃ first last, window.toList = first ++ '-' :: last ∧
    (first ≠ [] ∧ (∀ c ∈ first, c.isDigit) ∧ Nat.ofDigitChars 10 first 0 = a) ∧
    (last ≠ [] ∧ (∀ c ∈ last, c.isDigit) ∧ Nat.ofDigitChars 10 last 0 = b)

/-- There is no dash among digits. -/
lemma dash_not_mem {digits : List Char} (all : ∀ c ∈ digits, c.isDigit) : '-' ∉ digits :=
  fun member => absurd (all '-' member) (by decide)

/-- Digits are decimal characters. -/
lemma all_isDecimal {digits : List Char} (all : ∀ c ∈ digits, c.isDigit) :
    digits.all Number.isDecimal = true :=
  List.all_eq_true.2 fun c member => (Number.isDecimal_eq c).trans (all c member)

/-- The limits of a window are read as its two numbers. -/
lemma window?_of_limits (limits : Limits window a b) : window? window = some (a, b) := by
  obtain ⟨first, last, text, ⟨some_, digits, value⟩, ⟨some_', digits', value'⟩⟩ := limits
  have parts : Text.fields '-' window.toList = [first, last] := by
    rw [text, Text.fields_append_sep, Text.fields_of_not_mem (dash_not_mem digits),
      Text.fields_of_not_mem (dash_not_mem digits')]
    rfl
  rw [window?, parts]
  simp only [some_, some_', all_isDecimal digits, all_isDecimal digits', ne_eq, not_false_eq_true,
    decide_true, Bool.and_self, if_true, Number.digitsValue_eq digits,
    Number.digitsValue_eq digits', value, value']

/-- A trace that is switched on with a window is limited to that window. -/
lemma ofTexts_of_limits (limits : Limits window a b) :
    ofTexts (some "1") (some window) = ⟨true, a, b⟩ := by
  rw [ofTexts, if_pos rfl, Option.bind_some, window?_of_limits limits]
  rfl

/-- A line is shown if the count lies between the limits. -/
lemma shows_iff : (Tracing.mk true a b).shows count ↔ a ≤ count ∧ count ≤ b := by
  simp [shows]

end Tracing

/-- There is a word at every address of memory but the last. -/
lemma Machine.exists_fetches {m : Machine} {a : Nat} (at_ : m.pc = .address a)
    (inside : a ≤ 0xFFE) : ∃ word, m.wordAt m.pc = .ok word ∧ m.view.Fetches a word := by
  obtain ⟨word, fetched, -⟩ := Memory.word_nat (m := m.memory) (show a + 1 < 4096 by omega)
  have fetched : m.wordAt m.pc = .ok word := by
    rw [at_]
    exact fetched
  obtain ⟨a', fetches⟩ := wordAt_pc_eq_ok_iff.1 fetched
  cases Int.ofNat_inj.1 (Place.address.inj (fetches.1.symm.trans at_))
  exact ⟨word, fetched, fetches⟩

namespace Engine

variable {e : Engine} {word : UInt16}

/-- Whether the next step fetches a word. -/
structure Fetching (e : Engine) (word : UInt16) : Prop where
  running : e.fault = none
  awake : e.machine.keyWait = none
  fetched : e.machine.wordAt e.machine.pc = .ok word

/-- What is printed of a word because it is passed over. -/
def passedOver (e : Engine) (word : UInt16) : Array String :=
  match Instruction.decode word, e.policy with
  | .unknown _, .lenient => #[skippedLine e.machine.pc word]
  | _, _ => #[]

/-- A lenient engine tells that it passes over a word that is no instruction. -/
lemma passedOver_of_unknown {word' : UInt16} (row : Instruction.decode word = .unknown word')
    (lenient : e.policy = .lenient) : e.passedOver word = #[skippedLine e.machine.pc word] := by
  rw [passedOver, row, lenient]

/-- What is seen of a step is what is seen of the word that it fetches. -/
lemma observed_step_of_fetching (h : e.Fetching word) :
    e.step.observed = e.observe e.machine.pc word (.decode word) := by
  obtain ⟨running, awake, fetched⟩ := h
  have way := e.step_stepped
  generalize e.step = t at way
  cases way with
  | halted stopped => cases running.symm.trans stopped
  | polled _ waits => cases awake.symm.trans waits
  | unfetched _ _ unfetched => cases fetched.symm.trans unfetched
  | completed _ _ fetched' | stopped _ _ fetched' =>
    cases fetched.symm.trans fetched'
    rfl

/-- A step that fetches nothing shows nothing. -/
lemma observed_step_of_not_fetching (nothing : ∀ word, ¬ e.Fetching word) :
    e.step.observed = .none := by
  have way := e.step_stepped
  generalize e.step = t at way
  cases way with
  | halted | polled | unfetched => rfl
  | completed running awake fetched | stopped running awake fetched =>
    exact absurd ⟨running, awake, fetched⟩ (nothing _)

/-- The lines show the registers, and the program counter is none of them. -/
lemma lines_observe (e : Engine) (word : UInt16) :
    (e.observe e.machine.pc word (.decode word)).lines =
      (if e.tracing.shows e.executed then #[e.lineOf word] else #[]) ++
        if e.tracing.enabled then e.passedOver word else #[] := by
  have line : traceLine e.machine.pc.number (.finite word.toNat) (Instruction.decode word).mnemonic
      (Instruction.decode word).operand e.machine.skip.snapshot = e.lineOf word := rfl
  simp only [observe, line, passedOver]
  cases Instruction.decode word with
  | unknown => cases e.policy <;> simp
  | _ => simp

/-- What the engine shows of a step is the instruction that a tracing host finds in memory before
the step, with the registers before the step, whatever the step is going to do. The hook is called
with that instruction. -/
theorem step_shows_upcoming {a : Nat} (running : e.fault = none) (awake : e.machine.keyWait = none)
    (at_ : e.machine.pc = .address a) (inside : a ≤ 0xFFE) :
    ∃ word ins, e.machine.view.Fetches a word ∧ ins.Describes word ∧
      e.instructionAt (.address a) = .ok (word, ins) ∧
      let line := traceLine (.finite a) (.finite word.toNat) ins.mnemonic ins.operand
        e.machine.snapshot
      e.upcomingLine = .ok line ∧
      e.step.observed.lines =
        (if e.tracing.shows e.executed then #[line] else #[]) ++
          (if e.tracing.enabled then e.passedOver word else #[]) ∧
      e.step.observed.calls = if e.hooked then #[⟨.address a, word, ins⟩] else #[] := by
  obtain ⟨word, fetched, fetches⟩ := Machine.exists_fetches at_ inside
  have shown := observed_step_of_fetching ⟨running, awake, fetched⟩
  have found : e.instructionAt (.address a) = .ok (word, .decode word) := by
    rw [instructionAt, ← at_, fetched]
    rfl
  have line : e.lineOf word = traceLine (.finite a) (.finite word.toNat)
      (Instruction.decode word).mnemonic (Instruction.decode word).operand e.machine.snapshot := by
    rw [lineOf, at_]
    rfl
  refine ⟨word, .decode word, fetches, Instruction.describes_decode word, found, ?_⟩
  rw [← line, shown, ← at_]
  exact ⟨upcomingLine_of_fetched fetched, lines_observe e word, rfl⟩

/-- An engine at the end of memory, about to store three registers from the index on, that is over
its own instruction and then beyond memory. -/
def overwriting : Engine :=
  { Engine.start { Machine.start ((Memory.blank.set 0xFFE 0xF2).set 0xFFF 0x55) with
      pc := .address 0xFFE
      index := 0xFFE } {} .strict ⟨true, 0, 0⟩ (.cycle []) with
    hooked := true }

/-- The step fails, and has shown the instruction that is no longer there. -/
theorem step_shows_upcoming_overwriting :
    overwriting.fault = none ∧ overwriting.machine.keyWait = none ∧
    overwriting.machine.pc = .address 0xFFE ∧
    (∃ f, overwriting.step.result = .error (.stopped f)) ∧
    overwriting.step.observed.lines =
      #["FFE  F255  LD [I], V2       I:FFE V:00 00 00 00 00 00 00 00 00 00 00 00 00 00 00 00 " ++
        "SP:0 DT:00 ST:00"] ∧
    overwriting.step.observed.calls = #[⟨.address 0xFFE, 0xF255, .store 2⟩] := by
  have here : overwriting.machine.view.Fetches 0xFFE 0xF255 := by
    refine ⟨rfl, by decide, ?_⟩
    simp [overwriting, start, Machine.start, Machine.view, Memory.byteAt_set, Memory.size]
  have failed : overwriting.step.result = .error (.stopped
      ⟨.machine (.addressOutOfRange (.address 0x1000)), overwriting.machine.pc, 0xF255⟩) := by
    refine (step_eq_error_iff rfl rfl).2 (.inr ⟨Machine.wordAt_pc_eq_ok_iff.2 ⟨_, here⟩, ?_⟩)
    decide +kernel
  obtain ⟨word, ins, fetches, row, -, -, lines, calls⟩ :=
    step_shows_upcoming (e := overwriting) rfl rfl (a := 0xFFE) rfl (by decide)
  obtain ⟨-, rfl⟩ := here.unique fetches
  obtain rfl := row.decode_eq
  refine ⟨rfl, rfl, rfl, ⟨_, failed⟩, lines.trans ?_, calls⟩
  decide +kernel

end Engine

namespace Session

variable {s : Session} {act : Action} {acts : List Action}

/-- What is seen of a step of the session is what is seen of that of its engine. -/
lemma observed_act_step (s : Session) : (s.act .step).observed = s.engine.step.observed := rfl

/-- Nothing is shown but of steps and of frames. -/
lemma observed_act_of_ne_step (whole : act ≠ .frame) (idle : act ≠ .step) :
    (s.act act).observed = .none := by
  cases act with
  | step => exact absurd rfl idle
  | frame => exact absurd rfl whole
  | load bytes =>
    cases fits : Rom.ofBytes bytes with
    | error => rw [act_load_refused fits]
    | ok rom => rw [act_load fits]; rfl
  | setKey index down =>
    cases known : Digit.ofNumber? index with
    | none => rw [act_setKey_unknown known]
    | some key => rw [act_setKey known]; rfl
  | reset | tick | releaseKeys | setHook | setPolicy => rfl

/-- Nothing is seen of actions that fetch no word. -/
lemma observed_act_of_not_fetching (whole : act ≠ .frame)
    (nothing : act = .step → ∀ word, ¬ s.engine.Fetching word) : (s.act act).observed = .none := by
  by_cases step : act = .step
  · subst step
    exact Engine.observed_step_of_not_fetching (nothing rfl)
  · exact observed_act_of_ne_step whole step

/-- The lines that are printed in the course of some actions. -/
def lines (s : Session) : List Action → List String
  | [] => []
  | a :: rest => (s.act a).observed.lines.toList ++ (s.act a).state.lines rest

/-- The lines of actions one after the other. -/
lemma lines_append (s : Session) (acts acts' : List Action) :
    s.lines (acts ++ acts') = s.lines acts ++ (s.after acts).lines acts' := by
  induction acts generalizing s with
  | nil => rfl
  | cons a rest ih =>
    rw [List.cons_append, lines, ih, lines, List.append_assoc]
    rfl

/-- The steps of a frame print what is printed of the steps that a host asks for. Those that are
left when the engine stops print nothing. -/
lemma lines_stepsFrom (s : Session) (seen : Observed) (n : Nat) :
    (s.engine.stepsFrom seen n).observed.lines.toList =
      seen.lines.toList ++ s.lines (.replicate n .step) := by
  induction n generalizing s seen with
  | zero => exact (List.append_nil _).symm
  | succ n ih =>
    have later := ih s.step.state
    have shown (now : Observed) : (seen ++ now).lines.toList =
        seen.lines.toList ++ now.lines.toList := Array.toList_append
    rw [List.replicate_succ]
    change _ = _ ++ (s.engine.step.observed.lines.toList ++ s.step.state.lines _)
    rw [← List.append_assoc, ← shown]
    cases running : s.engine.fault with
    | some f =>
      have step := Engine.step_of_stopped running
      have still : s.step.state = s :=
        congrArg (fun t : Transition Engine Unit => s.withEngine t.state) step
      rw [still, step, Engine.stepsFrom_of_stopped running]
      have left := ih s seen
      rw [Engine.stepsFrom_of_stopped running] at left
      rw [shown]
      exact left.trans (congrArg (· ++ _) (List.append_nil _).symm)
    | none =>
      rw [Engine.stepsFrom_succ running]
      cases result : s.engine.step.result with
      | ok => exact later _
      | error error =>
        obtain ⟨f, rfl⟩ := Engine.error_step result
        have stopped : s.step.state.engine.fault = some f := (Engine.step_of_thrown result).1
        have left := later (seen ++ s.engine.step.observed)
        rwa [Engine.stepsFrom_of_stopped stopped] at left

/-- A frame prints what its parts print. -/
lemma lines_parts (s : Session) (a : Action) :
    s.lines (s.parts a) = (s.act a).observed.lines.toList := by
  cases a with
  | frame =>
    have steps := (lines_stepsFrom s .none s.frameSteps).symm
    have tick (t : Session) (done : Bool) : t.lines (if done then [.tick] else []) = [] := by
      cases done <;> rfl
    rcases run : s.engine.stepsBelow s.settings.instructionsPerFrame with _ | ⟨e, error | _, seen⟩
    · have endless := frame_of_endless run
      rw [parts_frame_of_endless endless, act_frame_of_endless endless]
      rfl
    · have done := frame_of_error run
      rw [parts_frame done, act_frame done, lines_append, tick, List.append_nil]
      rw [show s.engine.stepsFrom .none s.frameSteps = _ from stepsBelow_frameSteps run] at steps
      exact steps
    · have done := frame_of_ok run
      rw [parts_frame done, act_frame done, lines_append, tick, List.append_nil]
      rw [show s.engine.stepsFrom .none s.frameSteps = _ from stepsBelow_frameSteps run] at steps
      exact steps
  | _ => exact List.append_nil _

/-- The lines of actions do not change when frames are taken apart. -/
lemma lines_unrolled (s : Session) (acts : List Action) :
    s.lines (s.unrolled acts) = s.lines acts := by
  induction acts generalizing s with
  | nil => rfl
  | cons a rest ih =>
    rw [unrolled, lines_append, lines_parts, after_parts, ih]
    rfl

/-- No action changes the tracing. -/
lemma tracing_act {t : Tracing} (own : s.tracing = t ∧ s.engine.tracing = t)
    (whole : act ≠ .frame) :
    (s.act act).state.tracing = t ∧ (s.act act).state.engine.tracing = t := by
  by_cases step : act = .step
  · subst step
    exact ⟨own.1, (Engine.tracing_step s.engine).trans own.2⟩
  · exact act_keeps (P := fun s => s.tracing = t ∧ s.engine.tracing = t) own whole step
      (fun _ => ⟨own.1, own.1⟩) (fun _ => own) (fun _ => own) (fun _ => own)

/-- No actions change the tracing. -/
lemma tracing_after {t : Tracing} (own : s.tracing = t ∧ s.engine.tracing = t)
    (whole : ∀ a ∈ acts, a ≠ .frame) :
    (s.after acts).tracing = t ∧ (s.after acts).engine.tracing = t := by
  induction acts generalizing s with
  | nil => exact own
  | cons a rest ih =>
    obtain ⟨first, others⟩ := List.forall_mem_cons.1 whole
    exact ih (tracing_act own first) others

/-- In a session with a trace that is limited to the instruction counts from `a` to `b`, only steps
that fetch a word print anything, frames being taken apart before. Such a step prints the line of
the instruction if the count is in the window, and then one that the word was passed over, if it
was. The latter line does not depend on the count. -/
theorem lines_in_window {window : String} {a b : Nat} (limits : Tracing.Limits window a b)
    (settings : Settings) (random : RandomSource) (acts : List Action) :
    let s := start settings (.ofTexts (some "1") (some window)) random
    s.lines (s.unrolled acts) = s.lines acts ∧
    ∀ past act, past ++ [act] <+: s.unrolled acts →
      let e := (s.after past).engine
      let printed := ((s.after past).act act).observed.lines
      (printed ≠ #[] → act = .step ∧ ∃ word, e.Fetching word) ∧
      ∀ word, act = .step → e.Fetching word →
        printed =
          (if a ≤ e.executed ∧ e.executed ≤ b then #[e.lineOf word] else #[]) ++
            e.passedOver word := by
  intro s
  refine ⟨lines_unrolled s acts, fun past act early => ?_⟩
  have whole : ∀ b ∈ past ++ [act], b ≠ .frame :=
    fun b member => ne_frame_of_mem_unrolled (early.subset member)
  obtain ⟨before, last⟩ := List.forall_mem_append.1 whole
  have traced : (s.after past).engine.tracing = ⟨true, a, b⟩ :=
    (tracing_after ⟨rfl, rfl⟩ before).2.trans (Tracing.ofTexts_of_limits limits)
  refine ⟨fun some_ => ?_, fun word step fetching => ?_⟩
  · by_contra other
    have nothing : ((s.after past).act act).observed = .none :=
      observed_act_of_not_fetching (last act (List.mem_singleton_self act))
        fun step word fetching => other ⟨step, word, fetching⟩
    exact some_ (congrArg Observed.lines nothing)
  · subst step
    rw [observed_act_step, Engine.observed_step_of_fetching fetching, Engine.lines_observe, traced]
    simp only [Tracing.shows_iff, if_true]

/-- A lenient session that is traced in a window of the instruction count, with a program of one
word that is none. -/
def skipping (window : String) : Session :=
  (start { unknownOpcodes := .lenient } (.ofTexts (some "1") (some window)) (.cycle [])).after
    [.load [0x00, 0x00]]

/-- The program of that session has been booted. -/
lemma skipping_eq_boot (window : String) : skipping window =
    (start { unknownOpcodes := .lenient } (.ofTexts (some "1") (some window)) (.cycle [])).boot
      ⟨[0x00, 0x00], by decide⟩ :=
  congrArg Transition.state (act_load rfl)

/-- That session is about to fetch the word. -/
lemma fetching_skipping (window : String) : (skipping window).engine.Fetching 0x0000 := by
  have begins := begins_boot (.start { unknownOpcodes := .lenient }
    (.ofTexts (some "1") (some window)) (.cycle [])) ⟨[0x00, 0x00], by decide⟩
  have fetches := @Begins.fetches _ _ 0x0000 begins ⟨by decide, rfl⟩
  rw [skipping_eq_boot]
  exact ⟨begins.running, begins.awake, Machine.wordAt_pc_eq_ok_iff.2 ⟨_, fetches⟩⟩

/-- That session is going to tell that it passes over the word. -/
lemma passedOver_skipping (window : String) : (skipping window).engine.passedOver 0x0000 =
    #["[cpu] unknown opcode $0000 at PC=$0200 skipped"] := by
  have row : Instruction.decode 0x0000 = .unknown 0x0000 := rfl
  rw [skipping_eq_boot, Engine.passedOver_of_unknown row rfl]
  change #[Engine.skippedLine (.address 0x200) 0x0000] = _
  decide +kernel

/-- In its window the session prints the line of the word, and that it is passed over. -/
theorem lines_in_window_skipping :
    Tracing.Limits "0-0" 0 0 ∧ (skipping "0-0").engine.executed = 0 ∧
    (skipping "0-0").engine.Fetching 0x0000 ∧
    ((skipping "0-0").act .step).observed.lines =
      #[(skipping "0-0").engine.lineOf 0x0000,
        "[cpu] unknown opcode $0000 at PC=$0200 skipped"] := by
  have limits : Tracing.Limits "0-0" 0 0 :=
    ⟨['0'], ['0'], rfl, ⟨by decide, List.forall_mem_singleton.2 rfl, rfl⟩,
      by decide, List.forall_mem_singleton.2 rfl, rfl⟩
  have first : (skipping "0-0").engine.executed = 0 := by rw [skipping_eq_boot]; rfl
  have fetching := fetching_skipping "0-0"
  have passed := passedOver_skipping "0-0"
  obtain ⟨-, printed⟩ := lines_in_window limits { unknownOpcodes := .lenient } (.cycle [])
    [.load [0x00, 0x00], .step]
  obtain ⟨-, line⟩ := printed [.load [0x00, 0x00]] .step (List.prefix_refl _)
  rw [skipping] at first fetching passed ⊢
  have line := line 0x0000 rfl fetching
  rw [first, passed] at line
  exact ⟨limits, first, fetching, line⟩

/-- A session prints that it passes over a word before its window has begun. -/
theorem lines_before_window :
    Tracing.Limits "5-9" 5 9 ∧ (skipping "5-9").engine.executed = 0 ∧
    ((skipping "5-9").act .step).observed.lines =
      #["[cpu] unknown opcode $0000 at PC=$0200 skipped"] := by
  have limits : Tracing.Limits "5-9" 5 9 :=
    ⟨['5'], ['9'], rfl, ⟨by decide, List.forall_mem_singleton.2 rfl, rfl⟩,
      by decide, List.forall_mem_singleton.2 rfl, rfl⟩
  have first : (skipping "5-9").engine.executed = 0 := by rw [skipping_eq_boot]; rfl
  have traced : (skipping "5-9").engine.tracing = ⟨true, 5, 9⟩ := by
    rw [skipping_eq_boot]
    exact Tracing.ofTexts_of_limits limits
  refine ⟨limits, first, ?_⟩
  rw [observed_act_step, Engine.observed_step_of_fetching (fetching_skipping _),
    Engine.lines_observe, traced, first, passedOver_skipping]
  rfl

end Session

end Chip8
