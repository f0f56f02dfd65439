import Chip8.Proofs.Reachable
import Chip8.Run
/-!
# The frames of a run

A run is a chain of frames, each of which either ends it or leaves a report from which it goes on
(`RunReport.Next`, `RunReport.Passes`). It has a report if and only if it comes to one that is the
last (`Session.play_eq_some_ok_iff`). `FrameBegins` lists the sessions in which the frames of a run
begin: a run that gets to a frame which ends on a jump to itself ends there
(`FrameBegins.play_of_spinning`), and a run that ends so has got to such a frame
(`frameBegins_of_spinning`). All of these sessions are reachable, and their engines run
(`FrameBegins.running`).
-/

namespace Chip8

open Number (counted)

namespace Session

variable {s s' : Session} {f : Nat} {events : List KeyEvent}

/-- A session whose engine has not stopped, among those that come of a new one. -/
def IsRunning (s : Session) : Prop := s.Reachable ∧ s.engine.fault = none

/-- A program that has just been loaded runs. -/
lemma isRunning_load {settings : Settings} {tracing : Tracing} {random : RandomSource}
    {bytes : List UInt8} (loaded : (start settings tracing random).load bytes = (s, .ok ())) :
    s.IsRunning := by
  cases fits : Rom.ofBytes bytes with
  | error error =>
    rw [load_refused fits] at loaded
    cases loaded
  | ok rom =>
    rw [load_fits fits] at loaded
    cases loaded
    exact ⟨(Reachable.start settings tracing random).boot rom, rfl⟩

/-- Loading leaves the settings as they are. -/
lemma settings_load {settings : Settings} {tracing : Tracing} {random : RandomSource}
    {bytes : List UInt8} {result : Except RomError Unit}
    (loaded : (start settings tracing random).load bytes = (s, result)) :
    s.settings = settings := by
  cases fits : Rom.ofBytes bytes with
  | error error =>
    rw [load_refused fits] at loaded
    cases loaded
    rfl
  | ok rom =>
    rw [load_fits fits] at loaded
    cases loaded
    rfl

/-- A key that goes down or up does not stop the engine. -/
lemma IsRunning.setKey {index : Number} {down : Bool} (h : s.IsRunning)
    (set : s.setKey index down = (s', .ok ())) : s'.IsRunning := by
  have reachable := h.1.act (.setKey index down)
  cases known : Digit.ofNumber? index with
  | none =>
    rw [setKey_unknown known] at set
    cases set
  | some key =>
    rw [setKey_known known] at set
    cases set
    rw [act_setKey known] at reachable
    exact ⟨reachable, h.2⟩

/-- What the events of a frame leave as it is, if keys do. -/
lemma applyEvents_induct {P : Session → Prop}
    (key : ∀ {s s' : Session} {index down}, P s → s.setKey index down = (s', .ok ()) → P s')
    (h : P s) (applied : s.applyEvents f events = .ok s') : P s' := by
  induction events generalizing s with
  | nil =>
    cases applied
    exact h
  | cons event rest ih =>
    rw [Session.applyEvents] at applied
    split at applied
    · rcases set : s.setKey event.index event.down with ⟨s₁, error | _⟩
      · rw [set] at applied
        cases applied
      · rw [set] at applied
        exact ih (key h set) applied
    · exact ih h applied

/-- Key events do not stop the engine. -/
lemma IsRunning.applyEvents (h : s.IsRunning) (applied : s.applyEvents f events = .ok s') :
    s'.IsRunning := applyEvents_induct IsRunning.setKey h applied

/-- A frame that ends well does not stop the engine. -/
lemma IsRunning.frame {shown : FrameReport} {seen : Observed} (h : s.IsRunning)
    (done : s.frame = some ⟨s', .ok shown, seen⟩) : s'.IsRunning := by
  have reachable := h.1.act .frame
  rw [act_frame done] at reachable
  refine ⟨reachable, ?_⟩
  cases frame_framed done with
  | @ticked n e _ _ steps =>
    have last : e.fault = none := Engine.fault_stepsFrom h.2 steps
    exact last

/-- Key events leave the settings as they are. -/
lemma settings_applyEvents (applied : s.applyEvents f events = .ok s') :
    s'.settings = s.settings := by
  refine applyEvents_induct (P := fun t => t.settings = s.settings) ?_ rfl applied
  rintro s₁ s₂ index down same set
  cases known : Digit.ofNumber? index with
  | none =>
    rw [setKey_unknown known] at set
    cases set
  | some key =>
    rw [setKey_known known] at set
    cases set
    exact same

/-- A frame leaves the settings as they are. -/
lemma settings_frame {t : Transition Session FrameReport} (done : s.frame = some t) :
    t.state.settings = s.settings := by
  cases frame_framed done <;> rfl

end Session

namespace RunReport

variable {plan : RunPlan} {r r' r₀ : RunReport} {n m : Nat}

/-- What there is to report of a run before its first frame. -/
def initial (s : Session) : RunReport := ⟨.timeout, 0, s, #[], .none⟩

/-- What one more frame makes of the report of a run. -/
inductive Next (plan : RunPlan) (r : RunReport) : RunReport → Prop where
  | faulted {s s' fault now} :
    r.session.applyEvents r.frames plan.events = .ok s →
    s.frame = some ⟨s', .error (.stopped fault), now⟩ →
    Next plan r { r.extend s' now with ending := .faulted fault }
  | spinning {s s' shown now} :
    r.session.applyEvents r.frames plan.events = .ok s →
    s.frame = some ⟨s', .ok shown, now⟩ →
    s'.isSpinning = .ok true →
    Next plan r { r.extend s' now with ending := .spinning }
  | unasked {s s' shown now} :
    r.session.applyEvents r.frames plan.events = .ok s →
    s.frame = some ⟨s', .ok shown, now⟩ →
    s'.isSpinning = .ok false →
    plan.stopWhen = none →
    Next plan r (r.extend s' now)
  | stopped {s s' shown now stop} :
    r.session.applyEvents r.frames plan.events = .ok s →
    s.frame = some ⟨s', .ok shown, now⟩ →
    s'.isSpinning = .ok false →
    plan.stopWhen = some stop →
    stop s' (counted (r.frames + 1)) = .ok true →
    Next plan r { r.extend s' now with
      ending := .stopped
      checked := r.checked.push (counted (r.frames + 1)) }
  | asked {s s' shown now stop} :
    r.session.applyEvents r.frames plan.events = .ok s →
    s.frame = some ⟨s', .ok shown, now⟩ →
    s'.isSpinning = .ok false →
    plan.stopWhen = some stop →
    stop s' (counted (r.frames + 1)) = .ok false →
    Next plan r { r.extend s' now with checked := r.checked.push (counted (r.frames + 1)) }

/-- The errors with which the next frame of a run ends it without a report: an event names no key,
the program counter is out of reach, or the condition has no answer. -/
inductive Misses (plan : RunPlan) (r : RunReport) : Error → Prop where
  | key {error} :
    r.session.applyEvents r.frames plan.events = .error error →
    Misses plan r (.range error)
  | lost {s s' shown now fault} :
    r.session.applyEvents r.frames plan.events = .ok s →
    s.frame = some ⟨s', .ok shown, now⟩ →
    s'.isSpinning = .error fault →
    Misses plan r (.machine fault)
  | unanswered {s s' shown now stop error} :
    r.session.applyEvents r.frames plan.events = .ok s →
    s.frame = some ⟨s', .ok shown, now⟩ →
    s'.isSpinning = .ok false →
    plan.stopWhen = some stop →
    stop s' (counted (r.frames + 1)) = .error error →
    Misses plan r (.range error)

/-- The reports that a run comes to after some frames on its way from a report, as far as its bound
allows. -/
inductive Passes (plan : RunPlan) (r₀ : RunReport) : Nat → RunReport → Prop where
  | refl : Passes plan r₀ 0 r₀
  | next {n : Nat} {r r' : RunReport} :
    Passes plan r₀ n r →
    r.ending = .timeout →
    plan.maxFrames.isAbove r.frames = true →
    Next plan r r' →
    Passes plan r₀ (n + 1) r'

/-- Whether a run with a report is over. -/
def Ends (plan : RunPlan) (r : RunReport) : Prop :=
  r.ending = .timeout → plan.maxFrames.isAbove r.frames = false

namespace Next

/-- Every frame is counted. -/
lemma frames_eq (h : Next plan r r') : r'.frames = counted (r.frames + 1) := by
  cases h <;> rfl

/-- As long as a run goes on, the engine has not stopped. -/
lemma isRunning (h : Next plan r r') (running : r.session.IsRunning)
    (going : r'.ending = .timeout) : r'.session.IsRunning := by
  cases h with
  | faulted | spinning | stopped => cases going
  | unasked applied done | asked applied done => exact (running.applyEvents applied).frame done

/-- No frame changes the settings. -/
lemma settings_eq (h : Next plan r r') : r'.session.settings = r.session.settings := by
  cases h with
  | faulted applied done | spinning applied done | unasked applied done | stopped applied done
  | asked applied done =>
    exact (Session.settings_frame done).trans (Session.settings_applyEvents applied)

/-- A frame of a run either ends it or lets it go on. -/
lemma playFrame_eq (h : Next plan r r') (going : r.ending = .timeout) :
    r.playFrame plan =
      some (if r'.ending = .timeout then .next r' else .done (.ok r')) := by
  rw [playFrame]
  cases h with
  | faulted applied failed => simp only [applied, failed, reduceCtorEq, if_false]
  | spinning applied done spins =>
    simp only [applied, done, afterFrame]
    rw [show (r.extend _ _).session.isSpinning = .ok true from spins]
    simp only [reduceCtorEq, if_false]
  | unasked applied done quiet unasked =>
    simp only [applied, done, afterFrame]
    rw [show (r.extend _ _).session.isSpinning = .ok false from quiet]
    simp only [unasked, extend, going, if_true]
  | stopped applied done quiet some_ enough =>
    simp only [applied, done, afterFrame]
    rw [show (r.extend _ _).session.isSpinning = .ok false from quiet]
    simp only [some_, extend, enough, reduceCtorEq, if_false]
  | asked applied done quiet some_ enough =>
    simp only [applied, done, afterFrame]
    rw [show (r.extend _ _).session.isSpinning = .ok false from quiet]
    simp only [some_, extend, enough, going, if_true]

end Next

/-- A frame that misses a report ends the run with an error. -/
lemma Misses.playFrame_eq {error : Error} (h : Misses plan r error) :
    r.playFrame plan = some (.done (.error error)) := by
  rw [playFrame]
  cases h with
  | key refused => simp only [refused]
  | lost applied done lost =>
    simp only [applied, done, afterFrame]
    rw [show (r.extend _ _).session.isSpinning = .error _ from lost]
  | unanswered applied done quiet some_ answer =>
    simp only [applied, done, afterFrame]
    rw [show (r.extend _ _).session.isSpinning = .ok false from quiet]
    simp only [some_, extend, answer]

/-- A frame of a run has no end, or it leads to an error or to another report. -/
lemma frame_cases (plan : RunPlan) (r : RunReport) :
    (∃ s, r.session.applyEvents r.frames plan.events = .ok s ∧ s.frame = none) ∨
      (∃ error, Misses plan r error) ∨ ∃ r', Next plan r r' := by
  cases applied : r.session.applyEvents r.frames plan.events with
  | error error => exact .inr (.inl ⟨_, .key applied⟩)
  | ok s =>
    rcases done : s.frame with _ | ⟨s', error | shown, now⟩
    · exact .inl ⟨s, rfl, done⟩
    · cases Session.frame_framed done with
      | failed => exact .inr (.inr ⟨_, .faulted applied done⟩)
    · cases told : s'.isSpinning with
      | error fault => exact .inr (.inl ⟨_, .lost applied done told⟩)
      | ok spinning =>
        cases spinning with
        | true => exact .inr (.inr ⟨_, .spinning applied done told⟩)
        | false =>
          cases condition : plan.stopWhen with
          | none => exact .inr (.inr ⟨_, .unasked applied done told condition⟩)
          | some stop =>
            cases answer : stop s' (counted (r.frames + 1)) with
            | error error => exact .inr (.inl ⟨_, .unanswered applied done told condition answer⟩)
            | ok enough =>
              cases enough with
              | true => exact .inr (.inr ⟨_, .stopped applied done told condition answer⟩)
              | false => exact .inr (.inr ⟨_, .asked applied done told condition answer⟩)

namespace Passes

/-- The frames of a report are those that the run has come through, as far as counting gets. -/
lemma frames_eq (h : Passes plan r₀ n r) (start : r₀.frames = 0) : r.frames = counted n := by
  induction h with
  | refl => rw [start]; rfl
  | next _ _ _ next ih => rw [next.frames_eq, ih, Number.counted_counted_add_one]

/-- In a report on its way the engine has not stopped. -/
lemma isRunning (h : Passes plan r₀ n r) (running : r₀.session.IsRunning)
    (going : r.ending = .timeout) : r.session.IsRunning := by
  induction h with
  | refl => exact running
  | next _ before _ next ih => exact next.isRunning (ih before) going

/-- A run leaves the settings as they are. -/
lemma settings_eq (h : Passes plan r₀ n r) : r.session.settings = r₀.session.settings := by
  induction h with
  | refl => rfl
  | next _ _ _ next ih => exact next.settings_eq.trans ih

end Passes

end RunReport

namespace Session

open RunReport

variable {s s₀ : Session} {plan : RunPlan} {r : RunReport} {n f : Nat}

/-- A round of a run does not end if its frame does not. -/
lemma playFrame_of_endless (applied : r.session.applyEvents r.frames plan.events = .ok s)
    (endless : s.frame = none) : r.playFrame plan = none := by
  rw [playFrame]
  simp only [applied, endless]

/-- A round of a run that does not go on for ever leads to another report or to an error. -/
lemma round_cases {round : Round RunReport (Except Error RunReport)} (going : r.ending = .timeout)
    (played : r.playFrame plan = some round) :
    (∃ r', Next plan r r' ∧ round = if r'.ending = .timeout then .next r' else .done (.ok r')) ∨
      ∃ error, Misses plan r error ∧ round = .done (.error error) := by
  obtain ⟨s, applied, endless⟩ | ⟨error, misses⟩ | ⟨r', next⟩ := frame_cases plan r
  · rw [playFrame_of_endless applied endless] at played
    cases played
  · rw [misses.playFrame_eq] at played
    exact .inr ⟨error, misses, (Option.some.inj played).symm⟩
  · rw [next.playFrame_eq going] at played
    exact .inl ⟨r', next, (Option.some.inj played).symm⟩

/-- The states that the loop comes to are reports on their way. -/
lemma passes_of_comes (comes : (playLoop plan).Comes (initial s₀) n r) :
    (initial s₀).Passes plan n r ∧ r.ending = .timeout := by
  induction comes with
  | start => exact ⟨.refl, rfl⟩
  | @next n r r' _ above round ih =>
    obtain ⟨passes, going⟩ := ih
    rw [← passes.frames_eq rfl] at above
    obtain ⟨r₁, next, equal⟩ | ⟨_, -, equal⟩ := round_cases going round
    · split at equal
      case isTrue going' =>
        cases equal
        exact ⟨passes.next going above next, going'⟩
      case isFalse => cases equal
    · cases equal

/-- Reports on their way are states that the loop comes to. -/
lemma comes_of_passes (passes : (initial s₀).Passes plan n r) (going : r.ending = .timeout) :
    (playLoop plan).Comes (initial s₀) n r := by
  induction passes with
  | refl => exact .start
  | @next n r r' passes before above next ih =>
    refine .next (ih before) ?_ ?_
    · rw [← passes.frames_eq rfl]
      exact above
    · exact (next.playFrame_eq before).trans (by rw [if_pos going])

/-- A run ends with a report, from which it does not go on, or with an error. -/
theorem play_eq_some_iff {ended : Except Error RunReport} :
    s₀.play plan = some ended ↔
      (∃ n r, ended = .ok r ∧ (initial s₀).Passes plan n r ∧ r.Ends plan) ∨
      ∃ n r error, ended = .error error ∧ (initial s₀).Passes plan n r ∧ r.ending = .timeout ∧
        plan.maxFrames.isAbove r.frames = true ∧ Misses plan r error := by
  rw [play, Loop.run_eq_some_iff]
  constructor
  · rintro ⟨n, ends⟩
    rcases ends with @⟨r, comes, below⟩ | @⟨r, _, comes, above, round⟩
    · obtain ⟨passes, -⟩ := passes_of_comes comes
      refine .inl ⟨n, r, rfl, passes, fun _ => ?_⟩
      rw [passes.frames_eq rfl]
      exact below
    · obtain ⟨passes, going⟩ := passes_of_comes comes
      rw [← passes.frames_eq rfl] at above
      obtain ⟨r', next, equal⟩ | ⟨error, misses, equal⟩ := round_cases going round
      · split at equal
        case isTrue => cases equal
        case isFalse early =>
          cases equal
          exact .inl ⟨n + 1, r', rfl, passes.next going above next, fun on => absurd on early⟩
      · cases equal
        exact .inr ⟨n, r, error, rfl, passes, going, above, misses⟩
  · rintro (⟨n, r, rfl, passes, ends⟩ | ⟨n, r, error, rfl, passes, going, above, misses⟩)
    · by_cases going : r.ending = .timeout
      · refine ⟨n, .reached (comes_of_passes passes going) ?_⟩
        rw [← passes.frames_eq rfl]
        exact ends going
      · cases passes with
        | refl => exact absurd rfl going
        | @next n r₁ _ passes before above next =>
          refine ⟨n, .done (comes_of_passes passes before) ?_ ?_⟩
          · rw [← passes.frames_eq rfl]
            exact above
          · exact (next.playFrame_eq before).trans (by rw [if_neg going])
    · refine ⟨n, .done (comes_of_passes passes going) ?_ misses.playFrame_eq⟩
      rw [← passes.frames_eq rfl]
      exact above

/-- A run has a report if and only if it comes to one that is the last. -/
theorem play_eq_some_ok_iff :
    s₀.play plan = some (.ok r) ↔ ∃ n, (initial s₀).Passes plan n r ∧ r.Ends plan := by
  rw [play_eq_some_iff]
  constructor
  · rintro (⟨n, _, ⟨⟩, passes, ends⟩ | ⟨_, _, _, ⟨⟩, _⟩)
    exact ⟨n, passes, ends⟩
  · rintro ⟨n, passes, ends⟩
    exact .inl ⟨n, r, rfl, passes, ends⟩

/-- The sessions in which the frames of a run begin, after the key events of the frame, the number
of frames before being given. -/
def FrameBegins (plan : RunPlan) (s₀ : Session) (f : Nat) (s : Session) : Prop :=
  ∃ r, (initial s₀).Passes plan f r ∧ r.ending = .timeout ∧
    plan.maxFrames.isAbove r.frames = true ∧
    r.session.applyEvents r.frames plan.events = .ok s

/-- Engines run when a frame begins. -/
lemma FrameBegins.running (h : FrameBegins plan s₀ f s) (start : s₀.IsRunning) : s.IsRunning := by
  obtain ⟨r, passes, going, -, applied⟩ := h
  exact (passes.isRunning start going).applyEvents applied

/-- The frames of a run begin with the settings that it began with. -/
lemma FrameBegins.settings_eq (h : FrameBegins plan s₀ f s) : s.settings = s₀.settings := by
  obtain ⟨r, passes, -, -, applied⟩ := h
  exact (settings_applyEvents applied).trans passes.settings_eq

/-- A run ends in a frame at whose end the program is at a jump to itself. -/
lemma FrameBegins.play_of_spinning (h : FrameBegins plan s₀ f s) {s' : Session}
    {shown : FrameReport} {seen : Observed} (done : s.frame = some ⟨s', .ok shown, seen⟩)
    (spinning : s'.isSpinning = .ok true) :
    ∃ report, s₀.play plan = some (.ok report) ∧ report.ending = .spinning ∧
      report.frames = counted (f + 1) := by
  obtain ⟨r, passes, going, above, applied⟩ := h
  have next : (initial s₀).Passes plan (f + 1) _ :=
    passes.next going above (.spinning applied done spinning)
  exact ⟨_, play_eq_some_ok_iff.2 ⟨f + 1, next, RunEnd.noConfusion⟩, rfl, next.frames_eq rfl⟩

/-- A run has no end that gets to a frame which has none. -/
lemma FrameBegins.play_of_endless (h : FrameBegins plan s₀ f s) (endless : s.frame = none) :
    s₀.play plan = none := by
  obtain ⟨r, passes, going, above, applied⟩ := h
  refine (comes_of_passes passes going).run_eq.trans (Loop.runFrom_of_endless ?_ ?_)
  · rw [← passes.frames_eq rfl]
    exact above
  · exact playFrame_of_endless applied endless

/-- A run that ended on a jump to itself has got to a frame that ended so. -/
lemma frameBegins_of_spinning (ended : s₀.play plan = some (.ok r))
    (spinning : r.ending = .spinning) :
    ∃ f s shown seen, FrameBegins plan s₀ f s ∧ s.frame = some ⟨r.session, .ok shown, seen⟩ ∧
      r.session.isSpinning = .ok true := by
  obtain ⟨n, passes, -⟩ := play_eq_some_ok_iff.1 ended
  cases passes with
  | refl => cases spinning
  | @next n r₁ _ passes going above next =>
    cases next with
    | spinning applied done spins =>
      exact ⟨n, _, _, _, ⟨r₁, passes, going, above, applied⟩, done, spins⟩
    | faulted | stopped => cases spinning
    | unasked | asked => exact absurd (going.symm.trans spinning) RunEnd.noConfusion

end Session

end Chip8
