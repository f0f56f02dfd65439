import Chip8.Proofs.Steps
import Chip8.Proofs.View
import Chip8.Session
/-!
# What lasts

The sessions that come of a new one (`Session.Reachable`), and the properties of engines that all
of them have. What happens between a load and the next one comes down to four things: the engine
makes a step, the timers tick, a key goes down or up, all keys go up. A property that they preserve
lasts (`Engine.Lasts`) over any actions that go on with the current program (`Lasts.after`). An
invariant also holds at power-on and does not depend on hook and policy; it holds of every reachable
session (`Invariant.reachable`). What is refused, as against cut short, leaves a session as it is
(`Session.state_act_of_error`).
-/

namespace Chip8

namespace Action

/-- Whether an action goes on with the current program as it is, and names a key if it names one. -/
def IsOngoing : Action → Prop
  | .step | .frame | .tick | .releaseKeys => True
  | .setKey index _ => ∃ key, Digit.ofNumber? index = some key
  | _ => False

/-- Whether an action goes on with what was loaded, and makes no new start. -/
def KeepsProgram : Action → Prop
  | .load _ | .reset => False
  | _ => True

end Action

namespace Engine

variable {e e' : Engine} {P : Engine → Prop}

/-- The engine after a tick of the timers. -/
def ticked (e : Engine) : Engine := e.withMachine e.machine.tick

/-- The engine with another keypad. -/
def withKeypad (e : Engine) (keypad : Keypad) : Engine :=
  e.withMachine { e.machine with keypad := keypad }

/-- A property that neither a step nor what a host does between two steps ends. -/
structure Lasts (P : Engine → Prop) : Prop where
  step {e : Engine} : P e → P e.step.state
  tick {e : Engine} : P e → P e.ticked
  press {e : Engine} (key down) : P e → P (e.withKeypad (e.machine.keypad.press key down))
  release {e : Engine} : P e → P (e.withKeypad e.machine.keypad.releaseAll)

/-- A lasting property that engines have at power-on, whatever their hook and their policy. -/
structure Invariant (P : Engine → Prop) : Prop extends Lasts P where
  fresh settings tracing rom random :
    P (Session.freshEngine settings tracing (Memory.powerOn.load rom) random)
  hook {e : Engine} (on) : P e → P { e with hooked := on }
  policy {e : Engine} (policy) : P e → P { e with policy := policy }

/-- What lasts is there after any steps of a frame. -/
lemma Lasts.stepsFrom (lasts : Lasts P) (h : P e) (seen : Observed) (n : Nat) :
    P (e.stepsFrom seen n).state := by
  induction n generalizing e seen with
  | zero => exact h
  | succ n ih =>
    rw [Engine.stepsFrom]
    split
    · exact h
    · have h' := lasts.step h
      split
      case h_1 equal =>
        rw [equal] at h'
        exact ih h' _
      case h_2 equal =>
        rw [equal] at h'
        exact h'

/-- What lasts is there when the steps below a bound have ended. -/
lemma Lasts.stepsBelow (lasts : Lasts P) (h : P e) {bound : Number} {t : Transition Engine Unit}
    (done : e.stepsBelow bound = some t) : P t.state := by
  obtain ⟨n, -, rfl⟩ := stepsBelow_eq_some_iff.1 done
  exact lasts.stepsFrom h .none n

end Engine

namespace Session

variable {s : Session} {P : Engine → Prop} {e : Engine} {error : Error} {seen : Observed}

/-- The session after some actions. -/
def after (s : Session) : List Action → Session
  | [] => s
  | a :: rest => (s.act a).state.after rest

/-- Actions one after the other come to what their parts come to. -/
lemma after_append (acts acts' : List Action) :
    s.after (acts ++ acts') = (s.after acts).after acts' := by
  induction acts generalizing s with
  | nil => rfl
  | cons a rest ih => exact ih

/-- The sessions that come of a new one. -/
inductive Reachable : Session → Prop where
  | start (settings tracing random) : Reachable (.start settings tracing random)
  | act {s : Session} (a : Action) : Reachable s → Reachable (s.act a).state

/-- Bytes that fit are loaded by booting their program. -/
lemma load_fits {bytes : List UInt8} {rom : Rom} (fits : Rom.ofBytes bytes = .ok rom) :
    s.load bytes = (s.boot rom, .ok ()) := by
  rw [load, fits]

/-- A load that is refused changes nothing. -/
lemma load_refused {bytes : List UInt8} {error : RomError}
    (refused : Rom.ofBytes bytes = .error error) : s.load bytes = (s, .error error) := by
  rw [load, refused]

/-- To load bytes that fit is to boot their program. -/
lemma act_load {bytes : List UInt8} {rom : Rom} (fits : Rom.ofBytes bytes = .ok rom) :
    s.act (.load bytes) = (s.boot rom).quietly := by
  rw [act, load_fits fits, changed]

/-- Bytes that do not fit are refused, and the session stays as it is. -/
lemma act_load_refused {bytes : List UInt8} {error : RomError}
    (refused : Rom.ofBytes bytes = .error error) :
    s.act (.load bytes) = ⟨s, .error (.rom error), .none⟩ := by
  rw [act, load_refused refused, changed]

/-- Booting a program leads to a session that can be reached. -/
lemma Reachable.boot (h : s.Reachable) (rom : Rom) : (s.boot rom).Reachable := by
  have loaded := h.act (.load rom.bytes)
  rw [act_load (Rom.ofBytes_eq_ok_iff.2 rfl)] at loaded
  exact loaded

/-- Steps lead to sessions that can be reached. -/
lemma Reachable.step (h : s.Reachable) : s.step.state.Reachable := h.act .step

/-- Actions lead to sessions that can be reached. -/
lemma Reachable.after (h : s.Reachable) (acts : List Action) : (s.after acts).Reachable := by
  induction acts generalizing s with
  | nil => exact h
  | cons a rest ih => exact ih (h.act a)

/-- The key of an index that has one goes down or up. -/
lemma setKey_known {index : Number} {key : Key} (known : Digit.ofNumber? index = some key)
    (down : Bool) : s.setKey index down =
      (s.withEngine (s.engine.withKeypad (s.machine.keypad.press key down)), .ok ()) := by
  simp only [setKey, Keypad.setKey, Keypad.key, known]
  rfl

/-- The key of an unknown index changes nothing. -/
lemma setKey_unknown {index : Number} (unknown : Digit.ofNumber? index = none) (down : Bool) :
    s.setKey index down = (s, .error (.noKey index)) := by
  simp only [setKey, Keypad.setKey, Keypad.key, unknown]
  rfl

/-- To set the key of an index that has one is to press or release it. -/
lemma act_setKey {index : Number} {key : Key} (known : Digit.ofNumber? index = some key)
    (down : Bool) : s.act (.setKey index down) =
      (s.withEngine (s.engine.withKeypad (s.machine.keypad.press key down))).quietly := by
  rw [act, setKey_known known, changed]

/-- An index that has no key is refused, and the session stays as it is. -/
lemma act_setKey_unknown {index : Number} (unknown : Digit.ofNumber? index = none) (down : Bool) :
    s.act (.setKey index down) = ⟨s, .error (.range (.noKey index)), .none⟩ := by
  rw [act, setKey_unknown unknown, changed]

/-- What is refused leaves the session as it is. Only steps and frames, which may be cut short, fail
with something done. -/
theorem state_act_of_error {a : Action} (whole : a ≠ .step ∧ a ≠ .frame) {error : Error}
    (refused : (s.act a).result = .error error) : (s.act a).state = s := by
  cases a with
  | load bytes =>
    cases fits : Rom.ofBytes bytes with
    | error => rw [act_load_refused fits]
    | ok rom =>
      rw [act_load fits] at refused
      cases refused
  | setKey index down =>
    cases known : Digit.ofNumber? index with
    | none => rw [act_setKey_unknown known]
    | some key =>
      rw [act_setKey known] at refused
      cases refused
  | step => exact absurd rfl whole.1
  | frame => exact absurd rfl whole.2
  | reset | tick | releaseKeys | setHook | setPolicy => cases refused

/-- A frame ends with a step that fails, without a tick. -/
lemma frame_of_error
    (h : s.engine.stepsBelow s.settings.instructionsPerFrame = some ⟨e, .error error, seen⟩) :
    s.frame = some ⟨s.withEngine e, .error error, seen⟩ := by
  rw [frame, h]
  rfl

/-- A frame whose steps end well ends with a tick. -/
lemma frame_of_ok
    (h : s.engine.stepsBelow s.settings.instructionsPerFrame = some ⟨e, .ok (), seen⟩) :
    s.frame = some
      ⟨s.withEngine e.ticked, .ok ⟨e.executed - s.engine.executed, e.halted⟩, seen⟩ := by
  rw [frame, h]
  rfl

/-- A frame has no end if its steps have none. -/
lemma frame_of_endless (h : s.engine.stepsBelow s.settings.instructionsPerFrame = none) :
    s.frame = none := by
  rw [frame, h]
  rfl

/-- What a frame that has an end comes to: its steps ended well and the timers ticked, or one of its
steps failed. -/
inductive Framed (s : Session) : Transition Session FrameReport → Prop where
  | ticked {n : Nat} {e : Engine} {seen : Observed} :
    s.engine.EndsAfter s.settings.instructionsPerFrame n →
    s.engine.steps n = ⟨e, .ok (), seen⟩ →
    Framed s ⟨s.withEngine e.ticked, .ok ⟨e.executed - s.engine.executed, e.halted⟩, seen⟩
  | failed {n : Nat} {e : Engine} {fault : Fault} {seen : Observed} :
    s.engine.EndsAfter s.settings.instructionsPerFrame n →
    s.engine.steps n = ⟨e, .error (.stopped fault), seen⟩ →
    Framed s ⟨s.withEngine e, .error (.stopped fault), seen⟩

/-- The ways in which a frame can end are these. -/
lemma frame_framed {t : Transition Session FrameReport} (done : s.frame = some t) : s.Framed t := by
  rcases run : s.engine.stepsBelow s.settings.instructionsPerFrame with _ | ⟨e, error | _, seen⟩
  · rw [frame_of_endless run] at done
    cases done
  · rw [frame_of_error run] at done
    cases done
    obtain ⟨n, ends, steps⟩ := Engine.stepsBelow_eq_some_iff.1 run
    obtain ⟨_, _, _, _, last, _⟩ := Engine.stepsFrom_error steps
    obtain ⟨fault, rfl⟩ := Engine.error_step last
    exact .failed ends steps
  · rw [frame_of_ok run] at done
    cases done
    obtain ⟨n, ends, steps⟩ := Engine.stepsBelow_eq_some_iff.1 run
    exact .ticked ends steps

/-- A frame has an end if its bound is reached. -/
lemma exists_frame (reached : s.settings.instructionsPerFrame.isReached = true) :
    ∃ t, s.frame = some t := by
  obtain ⟨t, run⟩ := Option.isSome_iff_exists.1 (Engine.isSome_stepsBelow_iff.2 (.inl reached))
  exact ⟨s.endFrame t, by rw [frame, run]; rfl⟩

/-- A frame has no end if its bound is not reached and its steps never stop the engine. -/
lemma frame_eq_none (endless : s.settings.instructionsPerFrame.isReached = false)
    (running : ∀ n, (s.engine.steps n).state.halted = false) : s.frame = none := by
  apply frame_of_endless
  rw [← Option.not_isSome_iff_eq_none, Engine.isSome_stepsBelow_iff, endless]
  rintro (reached | ⟨n, halted⟩)
  · cases reached
  · rw [running n] at halted
    cases halted

/-- What a host gets of a frame that has an end. -/
lemma act_frame {t : Session} {result : Except Error FrameReport}
    (h : s.frame = some ⟨t, result, seen⟩) : s.act .frame = ⟨t, some <$> result, seen⟩ := by
  simp only [act, h]

/-- A frame that has no end is passed by. -/
lemma act_frame_of_endless (h : s.frame = none) : s.act .frame = s.quietly := by
  simp only [act, h]

/-- An action that makes no new start changes nothing but the engine. -/
lemma act_eq_withEngine {a : Action} (keeps : a.KeepsProgram) :
    (s.act a).state = s.withEngine (s.act a).state.engine := by
  cases a with
  | load | reset => exact keeps.elim
  | setKey index down =>
    cases known : Digit.ofNumber? index with
    | none =>
      rw [act_setKey_unknown known]
      rfl
    | some key =>
      rw [act_setKey known]
      rfl
  | frame =>
    rcases run : s.engine.stepsBelow s.settings.instructionsPerFrame with _ | ⟨e, error | _, seen⟩
    · rw [act_frame_of_endless (frame_of_endless run)]
      rfl
    · rw [act_frame (frame_of_error run)]
      rfl
    · rw [act_frame (frame_of_ok run)]
      rfl
  | step | tick | releaseKeys | setHook | setPolicy => rfl

/-- Booting a program leaves settings and tracing as they are. -/
lemma configuration_boot (s : Session) (rom : Rom) :
    (s.boot rom).settings = s.settings ∧ (s.boot rom).tracing = s.tracing := ⟨rfl, rfl⟩

/-- No action changes what a session is configured with. -/
lemma configuration_act (s : Session) (a : Action) :
    (s.act a).state.settings = s.settings ∧ (s.act a).state.tracing = s.tracing := by
  by_cases keeps : a.KeepsProgram
  · rw [act_eq_withEngine keeps]
    exact ⟨rfl, rfl⟩
  · cases a with
    | load bytes =>
      cases fits : Rom.ofBytes bytes with
      | error =>
        rw [act_load_refused fits]
        exact ⟨rfl, rfl⟩
      | ok rom =>
        rw [act_load fits]
        exact s.configuration_boot rom
    | reset => exact s.configuration_boot s.rom
    | _ => exact absurd trivial keeps

/-- No actions change settings or tracing. -/
lemma configuration_after (s : Session) (acts : List Action) :
    (s.after acts).settings = s.settings ∧ (s.after acts).tracing = s.tracing := by
  induction acts generalizing s with
  | nil => exact ⟨rfl, rfl⟩
  | cons a rest ih =>
    obtain ⟨settings, tracing⟩ := ih (s.act a).state
    exact ⟨settings.trans (configuration_act s a).1, tracing.trans (configuration_act s a).2⟩

end Session

namespace Engine

variable {P : Engine → Prop} {s : Session}

/-- What lasts is there after a frame. -/
lemma Lasts.frame (lasts : Lasts P) (h : P s.engine) : P (s.act .frame).state.engine := by
  rcases run : s.engine.stepsBelow s.settings.instructionsPerFrame with _ | ⟨e, error | _, seen⟩
  · rwa [Session.act_frame_of_endless (Session.frame_of_endless run)]
  · rw [Session.act_frame (Session.frame_of_error run)]
    exact lasts.stepsBelow h run
  · rw [Session.act_frame (Session.frame_of_ok run)]
    exact lasts.tick (lasts.stepsBelow h run)

/-- What lasts is there after whatever goes on with the program. -/
lemma Lasts.act (lasts : Lasts P) {a : Action} (ongoing : a.IsOngoing) (h : P s.engine) :
    P (s.act a).state.engine := by
  cases a with
  | step => exact lasts.step h
  | frame => exact lasts.frame h
  | tick => exact lasts.tick h
  | releaseKeys => exact lasts.release h
  | setKey index down =>
    obtain ⟨key, known⟩ := ongoing
    rw [Session.act_setKey known]
    exact lasts.press key down h
  | _ => exact ongoing.elim

/-- What lasts holds after any actions that go on with the program. -/
lemma Lasts.after (lasts : Lasts P) {acts : List Action} (ongoing : ∀ a ∈ acts, a.IsOngoing)
    (h : P s.engine) : P (s.after acts).engine := by
  induction acts generalizing s with
  | nil => exact h
  | cons a rest ih =>
    obtain ⟨first, others⟩ := List.forall_mem_cons.1 ongoing
    exact ih others (lasts.act first h)

/-- An invariant holds of every reachable session. -/
lemma Invariant.reachable (inv : Invariant P) (reachable : s.Reachable) : P s.engine := by
  induction reachable with
  -- A new session is one in which the program of no bytes was loaded.
  | start settings tracing random =>
    have h := inv.fresh settings tracing .empty random
    rw [Memory.load_empty_powerOn] at h
    exact h
  | @act s a _ h =>
    cases a with
    | load bytes =>
      simp only [Session.act, Session.load]
      cases Rom.ofBytes bytes with
      | error => exact h
      | ok rom => exact inv.fresh ..
    | reset => exact inv.fresh ..
    | setHook on => exact inv.hook on h
    | setPolicy policy => exact inv.policy policy h
    | setKey index down =>
      cases known : Digit.ofNumber? index with
      | none => rwa [Session.act_setKey_unknown known]
      | some key => exact inv.act ⟨key, known⟩ h
    | _ => exact inv.act trivial h

end Engine

end Chip8
