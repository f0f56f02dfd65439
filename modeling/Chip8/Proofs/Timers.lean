import Chip8.Proofs.Completions
/-!
# The timers of a run

A timer is set by one instruction, and runs down with the ticks. `Session.timerLog` lists what
happens to it from the last start on, the latest first, and `Session.Shows.after` says what that
leaves: the byte it was given last, less the ticks since. Nothing else gets at a timer
(`Session.timer_act`). `timers_run_down` is the main result, over any run and at every point of it.
-/

namespace Chip8

/-- The two timers. -/
inductive Timer where
  | delay
  | sound
deriving DecidableEq

/-- What happens to a timer. -/
inductive TimerEvent where
  | given (value : UInt8)
  | ticked
deriving DecidableEq

namespace TimerEvent

/-- The byte that an event gives to the timer, if any. -/
def value? : TimerEvent → Option UInt8
  | given value => some value
  | ticked => none

/-- The byte that the timer was given last, the latest event being the first, and zero if it was
given none. -/
def lastGiven (events : List TimerEvent) : UInt8 := (events.findSome? value?).getD 0

/-- How often the timer has ticked since. -/
def ticksSince (events : List TimerEvent) : Nat :=
  (events.takeWhile fun event => event.value?.isNone).length

/-- What events leave of a timer that is zero in the beginning. -/
def left (events : List TimerEvent) : Nat := (lastGiven events).toNat - ticksSince events

/-- A timer that has just been given a value has it left. -/
lemma left_given (value : UInt8) (events : List TimerEvent) :
    left (given value :: events) = value.toNat := rfl

/-- A tick takes one off, if there is any left. -/
lemma left_ticked (events : List TimerEvent) : left (ticked :: events) = left events - 1 :=
  (Nat.sub_sub _ _ 1).symm

end TimerEvent

/-- What a timer shows. -/
def Machine.timer (m : Machine) : Timer → UInt8
  | .delay => m.delay
  | .sound => m.sound

/-- A tick runs either timer down. -/
lemma Machine.timer_tick (m : Machine) (t : Timer) : m.tick.timer t = decay (m.timer t) := by
  cases t <;> rfl

/-- The instruction that sets a timer to a register. -/
def Timer.setter : Timer → Register → Instruction
  | .delay, x => .setDelay x
  | .sound, x => .setSound x

namespace Instruction

/-- The register that an instruction sets a timer to, if it sets that timer. -/
def source? (t : Timer) : Instruction → Option Register
  | setDelay x => if t = .delay then some x else none
  | setSound x => if t = .sound then some x else none
  | _ => none

/-- An instruction sets a timer if and only if it is the one for that timer. -/
lemma source?_eq_some_iff {ins : Instruction} {t : Timer} {x : Register} :
    ins.source? t = some x ↔ ins = t.setter x := by
  cases t <;> cases ins <;> simp [source?, Timer.setter]

end Instruction

namespace View

/-- What a timer shows. -/
def timer (s : View) : Timer → Nat
  | .delay => s.delay
  | .sound => s.sound

/-- The table sets a timer as the instruction does. -/
lemma timer_effect (s : View) (d : Dialect) (a byte : Nat) (ins : Instruction) (t : Timer) :
    (s.effect d a byte ins).timer t = ((ins.source? t).map s.register).getD (s.timer t) := by
  cases ins with
  | or | and | xor =>
    rw [effect, putLogic_eq]
    cases t <;> rfl
  | store | load =>
    rw [effect, moved_eq]
    cases t <;> rfl
  | _ => cases t <;> rfl

end View

/-- A timer of the view is that of the machine. -/
lemma Machine.timer_view (m : Machine) (t : Timer) : m.view.timer t = (m.timer t).toNat := by
  cases t <;> rfl

/-- A step sets a timer if it completes the instruction that does so, and else leaves it alone. -/
lemma Engine.timer_step (e : Engine) (t : Timer) :
    e.step.state.machine.timer t =
      ((e.completing?.bind (·.source? t)).map e.machine.get).getD (e.machine.timer t) := by
  cases known : e.completing? with
  | none =>
    obtain ⟨-, delay, sound⟩ := rest_of_completing_none known
    cases t with
    | delay => exact delay
    | sound => exact sound
  | some ins =>
    obtain ⟨word, fetched, rfl, clear, completed⟩ := state_of_completing known
    obtain ⟨a, -, view⟩ := view_completed fetched clear
    have shown := congrArg (View.timer · t) view
    rw [View.timer_effect, Machine.timer_view, Machine.timer_view, ← completed] at shown
    apply UInt8.toNat_inj.1
    rw [shown, Option.bind_some]
    cases (Instruction.decode word).source? t <;> rfl

namespace Session

open TimerEvent

variable {s : Session} {a : Action} {t : Timer} {log : List TimerEvent} {acts : List Action}

/-- What an action that is no frame does to a timer, if anything. -/
def timerEvent? (s : Session) (t : Timer) : Action → Option TimerEvent
  | .step => (s.engine.completing?.bind (·.source? t)).map fun x => given (s.machine.get x)
  | .tick => some ticked
  | _ => none

/-- What has happened to a timer since the last start, after another action, the latest first. -/
def recordTimer (s : Session) (t : Timer) (log : List TimerEvent) (a : Action) : List TimerEvent :=
  if a.startsAnew then [] else (s.timerEvent? t a).toList ++ log

/-- What has happened to a timer since the last start, after some more actions, the latest first. -/
def timerLog (s : Session) (t : Timer) (log : List TimerEvent) : List Action → List TimerEvent
  | [] => log
  | a :: rest => (s.act a).state.timerLog t (s.recordTimer t log a) rest

/-- Timers are at zero when a program starts anew. -/
lemma timer_of_startsAnew (anew : a.startsAnew = true) : (s.act a).state.machine.timer t = 0 := by
  cases a with
  | load bytes =>
    cases fits : Rom.ofBytes bytes with
    | error =>
      rw [Action.startsAnew, fits] at anew
      cases anew
    | ok rom =>
      rw [act_load fits]
      cases t <;> rfl
  | reset => cases t <;> rfl
  | _ => cases anew

/-- Actions that have nothing to do with a timer leave it alone. -/
lemma timer_act (whole : a ≠ .frame) (same : a.startsAnew = false)
    (nothing : s.timerEvent? t a = none) :
    (s.act a).state.machine.timer t = s.machine.timer t := by
  cases a with
  | load bytes =>
    cases fits : Rom.ofBytes bytes with
    | error => rw [act_load_refused fits]
    | ok rom =>
      rw [Action.startsAnew, fits] at same
      cases same
  | reset => cases same
  | step =>
    have still := s.engine.timer_step t
    rw [Option.map_eq_none_iff.1 nothing] at still
    exact still
  | frame => exact absurd rfl whole
  | tick => cases nothing
  | setKey index down =>
    cases known : Digit.ofNumber? index with
    | none => rw [act_setKey_unknown known]
    | some key =>
      rw [act_setKey known]
      cases t <;> rfl
  | releaseKeys | setHook | setPolicy => cases t <;> rfl

/-- A timer shows what the events since the last start have left of it. -/
def Shows (s : Session) (t : Timer) (log : List TimerEvent) : Prop :=
  (s.machine.timer t).toNat = left log

/-- An action that is no frame keeps what the record says of a timer. -/
lemma Shows.act (shows : s.Shows t log) (whole : a ≠ .frame) :
    (s.act a).state.Shows t (s.recordTimer t log a) := by
  rw [Shows, recordTimer]
  cases anew : a.startsAnew with
  | true =>
    rw [timer_of_startsAnew anew]
    rfl
  | false =>
    cases event : s.timerEvent? t a with
    | none =>
      rw [timer_act whole anew event]
      exact shows
    | some what =>
      cases a with
      | step =>
        obtain ⟨x, source, rfl⟩ := Option.map_eq_some_iff.1 event
        have set := s.engine.timer_step t
        rw [source] at set
        exact (congrArg UInt8.toNat set).trans (left_given _ log).symm
      | tick =>
        cases event
        change (s.machine.tick.timer t).toNat = left (ticked :: log)
        rw [Machine.timer_tick, Machine.toNat_decay, shows, left_ticked]
      | _ => cases event

/-- Actions without frames keep what the record says of a timer. -/
lemma Shows.after (shows : s.Shows t log) (whole : ∀ a ∈ acts, a ≠ .frame) :
    (s.after acts).Shows t (s.timerLog t log acts) := by
  induction acts generalizing s log with
  | nil => exact shows
  | cons a rest ih =>
    obtain ⟨first, others⟩ := List.forall_mem_cons.1 whole
    exact ih (shows.act first) others

/-- The timers of any run, its frames being taken apart into steps and ticks. At any time a timer
shows the byte that it was given last since the last start, less the ticks since then, and never
less than zero. It changes with nothing but a new start, a tick and the instruction that sets it. -/
theorem timers_run_down (settings : Settings) (tracing : Tracing) (random : RandomSource)
    (acts : List Action) :
    let s := start settings tracing random
    s.after (s.unrolled acts) = s.after acts ∧
      (∀ a ∈ s.unrolled acts, a ≠ .frame) ∧
      ∀ past, past <+: s.unrolled acts → ∀ t,
        ((s.after past).machine.timer t).toNat =
          (lastGiven (s.timerLog t [] past)).toNat - ticksSince (s.timerLog t [] past) ∧
        ∀ a, past ++ [a] <+: s.unrolled acts →
          (s.after (past ++ [a])).machine.timer t ≠ (s.after past).machine.timer t →
          a.startsAnew = true ∨ a = .tick ∨
            a = .step ∧ ∃ x, (s.after past).engine.completing? = some (t.setter x) := by
  intro s
  have whole : ∀ a ∈ s.unrolled acts, a ≠ .frame := fun a => ne_frame_of_mem_unrolled
  refine ⟨s.after_unrolled acts, whole, ?_⟩
  intro past early t
  have fresh : s.Shows t [] := by cases t <;> rfl
  refine ⟨fresh.after fun a member => whole a (early.subset member), ?_⟩
  intro a next changed
  rw [after_append] at changed
  have single : a ≠ .frame :=
    whole a (next.subset (List.mem_append_right _ (List.mem_singleton.2 rfl)))
  cases anew : a.startsAnew with
  | true => exact .inl rfl
  | false =>
    refine .inr ?_
    cases event : (s.after past).timerEvent? t a with
    | none => exact absurd (timer_act single anew event) changed
    | some what =>
      cases a with
      | tick => exact .inl rfl
      | step =>
        obtain ⟨x, source, -⟩ := Option.map_eq_some_iff.1 event
        obtain ⟨ins, known, source⟩ := Option.bind_eq_some_iff.1 source
        rw [Instruction.source?_eq_some_iff.1 source] at known
        exact .inr ⟨rfl, x, known⟩
      | _ => cases event

/-- A program that sets the delay timer to five and then returns from nowhere. The timer runs down
all the same. -/
theorem timers_run_down_stopped :
    ∃ s : Session, s = (start {} .off (.cycle [])).after
        [.load [0x63, 0x05, 0xF3, 0x15, 0x00, 0xEE], .step, .step, .step, .tick, .tick] ∧
      s.engine.fault.isSome = true ∧ (s.machine.timer .delay).toNat = 3 := by
  obtain ⟨u, begins, empty, loaded⟩ : ∃ u : Session,
      u.Begins ⟨[0x63, 0x05, 0xF3, 0x15, 0x00, 0xEE], by decide⟩ ∧ u.machine.stack = [] ∧
        ((start {} .off (.cycle [])).act (.load [0x63, 0x05, 0xF3, 0x15, 0x00, 0xEE])).state = u :=
    ⟨_, begins_boot (.start {} .off (.cycle [])) _, rfl, congrArg Transition.state (act_load rfl)⟩
  have first := begins.follows
  obtain ⟨done₁, second, view₁⟩ := first.step 0x6305 2 ⟨by decide, rfl⟩ rfl ⟨rfl, rfl, rfl⟩
  obtain ⟨done₂, third, view₂⟩ := second.step 0xF315 4 ⟨by decide, rfl⟩ rfl ⟨rfl, rfl, rfl⟩
  have next₁ : u.engine.completing? = some (.setByte 3 5) := Engine.completing?_eq_some_iff.2
    ⟨first.isAt ⟨by decide, rfl⟩ (Instruction.describes_decode 0x6305), done₁⟩
  have next₂ : u.step.state.engine.completing? = some (.setDelay 3) :=
    Engine.completing?_eq_some_iff.2
      ⟨second.isAt ⟨by decide, rfl⟩ (Instruction.describes_decode 0xF315), done₂⟩
  have five : u.step.state.machine.get 3 = 5 :=
    UInt8.toNat_inj.1 (congrFun (congrArg View.register view₁) 3)
  have nil : u.step.state.step.state.machine.stack = [] := by
    refine List.map_eq_nil_iff.1 ((congrArg View.stack view₂).trans ?_)
    exact (congrArg View.stack view₁).trans (List.map_eq_nil_iff.2 empty)
  have failed : u.step.state.step.state.engine.step.result = .error (.stopped
      ⟨.machine .stackUnderflow, u.step.state.step.state.machine.pc, 0x00EE⟩) :=
    Engine.step_of_underflow third.running third.awake (third.fetches ⟨by decide, rfl⟩) nil
  have next₃ : u.step.state.step.state.engine.completing? = none := by
    cases known : u.step.state.step.state.engine.completing? with
    | none => rfl
    | some ins => cases failed.symm.trans (Engine.completing?_eq_some_iff.1 known).2
  let acts : List Action :=
    [.load [0x63, 0x05, 0xF3, 0x15, 0x00, 0xEE], .step, .step, .step, .tick, .tick]
  have log : (start {} .off (.cycle [])).timerLog .delay [] acts = [ticked, ticked, given 5] := by
    have none₁ : u.recordTimer .delay [] .step = [] := by
      rw [recordTimer, timerEvent?, next₁]
      rfl
    have given₂ : u.step.state.recordTimer .delay [] .step = [given 5] := by
      rw [recordTimer, timerEvent?, show u.step.state.engine.completing? = _ from next₂, ← five]
      rfl
    have given₃ : u.step.state.step.state.recordTimer .delay [given 5] .step = [given 5] := by
      rw [recordTimer, timerEvent?, next₃]
      rfl
    calc
      _ = u.timerLog .delay [] [.step, .step, .step, .tick, .tick] := by rw [timerLog, loaded]; rfl
      _ = u.step.state.step.state.timerLog .delay [given 5] [.step, .tick, .tick] := by
        rw [timerLog, none₁, timerLog]
        exact congrArg (fun log => timerLog _ _ log _) given₂
      _ = [ticked, ticked, given 5] := by
        rw [timerLog, given₃]
        rfl
  have shown := ((timers_run_down {} .off (.cycle []) acts).2.2 acts List.prefix_rfl .delay).1
  rw [log] at shown
  refine ⟨_, rfl, ?_, shown.trans rfl⟩
  have ticks (s : Session) : (s.after [.tick, .tick]).engine.fault = s.engine.fault := rfl
  rw [after, loaded, after, after, after, ticks]
  exact congrArg Option.isSome (Engine.step_of_thrown failed).1

end Session

end Chip8
