import Chip8.Proofs.Reachable
/-!
# Sessions in step

Two sessions are in step if whatever a host does to both has the same results in both. That is
proved once, from what engines do with a word: a relation that executing a word keeps
(`Engine.InStep`) is kept over steps, over frames and over any actions that leave program and policy
as they are (`InStep.step`, `InStep.act`, `InStep.after`). The relation may come to an end, with a
property that the first of the two engines has from then on.
-/

namespace Chip8

/-- Transitions to related states, with the same result and the same to be seen. -/
inductive Transition.Alike {σ α : Type} (R : σ → σ → Prop) :
    Transition σ α → Transition σ α → Prop where
  | intro {s s' : σ} {result : Except Error α} {seen : Observed} :
    R s s' →
    Alike R ⟨s, result, seen⟩ ⟨s', result, seen⟩

/-- Whether an action goes on with the program and the policy that are set. -/
def Action.KeepsPolicy : Action → Prop
  | .load _ | .reset | .setPolicy _ => False
  | _ => True

/-- Actions that leave the policy as it is leave the program as it is. -/
lemma Action.KeepsPolicy.keepsProgram {a : Action} (keeps : a.KeepsPolicy) : a.KeepsProgram := by
  cases a with
  | load | reset | setPolicy => exact keeps.elim
  | _ => trivial

namespace Engine

variable {R : Engine → Engine → Prop} {Ended : Engine → Prop} {e e' : Engine}

/-- A relation of engines that have the same machine, with the same fault after as many
instructions. It is kept by what changes only these, and by executing a word, with the same result,
unless the first engine has then come to where the relation ends. It ends with an engine that has
stopped, if at all. -/
structure InStep (R : Engine → Engine → Prop) (Ended : Engine → Prop) : Prop where
  machine {e e' : Engine} : R e e' → e'.machine = e.machine
  fault {e e' : Engine} : R e e' → e'.fault = e.fault
  executed {e e' : Engine} : R e e' → e'.executed = e.executed
  change {e e' : Engine} (m f n) : R e e' →
    R { e with machine := m, fault := f, executed := n }
      { e' with machine := m, fault := f, executed := n }
  hook {e e' : Engine} (on) : R e e' → R { e with hooked := on } { e' with hooked := on }
  run {e e' : Engine} {word : UInt16} : R e e' → ¬ Ended (e.run word).state →
    Transition.Alike R (e.run word) (e'.run word)
  lasts : Lasts Ended
  ended_hook {e : Engine} (on) : Ended e → Ended { e with hooked := on }
  ended_halted {e : Engine} : Ended e → e.halted = true

namespace InStep

/-- Another machine keeps engines in step. -/
lemma withMachine (h : InStep R Ended) (related : R e e') (m : Machine) :
    R (e.withMachine m) (e'.withMachine m) := by
  rw [Engine.withMachine, Engine.withMachine, h.fault related, h.executed related]
  exact h.change m _ _ related

/-- A look for a key keeps engines in step. -/
lemma poll (h : InStep R Ended) (related : R e e') (target : Register) :
    R (e.poll target) (e'.poll target) := by
  rw [Engine.poll, Engine.poll, h.machine related]
  split
  case h_1 => exact related
  case h_2 =>
    rw [h.fault related, h.executed related]
    exact h.change _ _ _ related

/-- Steps keep engines in step until they end. -/
lemma step (h : InStep R Ended) (related : R e e') (on : ¬ Ended e.step.state) :
    Transition.Alike R e.step e'.step := by
  rw [Engine.step] at on ⊢
  rw [Engine.step, h.fault related, h.machine related]
  cases stopped : e.fault with
  | some f => exact .intro related
  | none =>
    cases waits : e.machine.keyWait with
    | some target => exact .intro (h.poll related target)
    | none =>
      simp only [stopped, waits, advance] at on ⊢
      rw [h.machine related]
      cases fetched : e.machine.wordAt e.machine.pc with
      | error f =>
        simp only [halt, h.executed related]
        exact .intro (h.change _ _ _ related)
      | ok word =>
        rw [fetched] at on
        exact h.run related on

/-- Engines in step have both stopped or both not. -/
lemma halted (h : InStep R Ended) (related : R e e') : e'.halted = e.halted :=
  congrArg Option.isSome (h.fault related)

/-- The steps of a frame keep engines in step until they end. -/
lemma stepsFrom (h : InStep R Ended) (related : R e e') (seen : Observed) (n : Nat)
    (on : ¬ Ended (e.stepsFrom seen n).state) :
    Transition.Alike R (e.stepsFrom seen n) (e'.stepsFrom seen n) := by
  induction n generalizing e e' seen with
  | zero => exact .intro related
  | succ n ih =>
    rw [Engine.stepsFrom] at on ⊢
    rw [Engine.stepsFrom, h.halted related]
    split
    case isTrue => exact .intro related
    case isFalse running =>
      rw [if_neg running] at on
      -- Had the relation ended at this step, it would have ended for good.
      have next : ¬ Ended e.step.state := by
        intro ended
        apply on
        split
        case h_1 equal =>
          rw [equal] at ended
          exact h.lasts.stepsFrom ended _ n
        case h_2 equal =>
          rw [equal] at ended
          exact ended
      have alike := h.step related next
      generalize e.step = t at alike on ⊢
      generalize e'.step = t' at alike ⊢
      cases alike with
      | @intro _ _ result _ related =>
        cases result with
        | ok => exact ih related _ on
        | error => exact .intro related

/-- After as many steps, engines in step have both stopped or both not. -/
lemma halted_steps (h : InStep R Ended) (related : R e e') {n : Nat}
    (on : ¬ Ended (e.steps n).state) :
    (e'.steps n).state.halted = (e.steps n).state.halted := by
  have alike := h.stepsFrom related .none n on
  rw [steps, steps]
  generalize e.stepsFrom .none n = t at alike ⊢
  generalize e'.stepsFrom .none n = t' at alike ⊢
  cases alike with
  | intro related' => exact h.halted related'

/-- The steps below a bound have an end for both or for neither. -/
lemma stepsBelow (h : InStep R Ended) (related : R e e') (bound : Number)
    (on : ∀ t, e.stepsBelow bound = some t → ¬ Ended t.state) :
    Option.Rel (Transition.Alike R) (e.stepsBelow bound) (e'.stepsBelow bound) := by
  cases made : e.stepsBelow bound with
  | some t =>
    obtain ⟨n, ends, rfl⟩ := stepsBelow_eq_some_iff.1 made
    have last := on _ made
    have ends' : e'.EndsAfter bound n := by
      refine ⟨ends.allows, ?_⟩
      rw [h.halted_steps related last]
      exact ends.stops
    rw [stepsBelow_eq_some_iff.2 ⟨n, ends', rfl⟩]
    exact .some (h.stepsFrom related .none n last)
  | none =>
    -- An engine that never stops has not come to where the relation ends.
    rw [← Option.not_isSome_iff_eq_none, isSome_stepsBelow_iff, not_or, not_exists] at made
    have made' : ¬ (e'.stepsBelow bound).isSome = true := by
      rw [isSome_stepsBelow_iff, not_or, not_exists]
      refine ⟨made.1, fun n halted => made.2 n ?_⟩
      rwa [h.halted_steps related fun ended => made.2 n (h.ended_halted ended)] at halted
    rw [Option.not_isSome_iff_eq_none.1 made']
    exact .none

/-- A tick keeps engines in step. -/
lemma ticked (h : InStep R Ended) (related : R e e') : R e.ticked e'.ticked := by
  rw [Engine.ticked, Engine.ticked, h.machine related]
  exact h.withMachine related _

/-- What happens to the keys keeps engines in step. -/
lemma withKeypad (h : InStep R Ended) (related : R e e') (keypad : Keypad) :
    R (e.withKeypad keypad) (e'.withKeypad keypad) := by
  rw [Engine.withKeypad, Engine.withKeypad, h.machine related]
  exact h.withMachine related _

end InStep

end Engine

namespace Engine.InStep

open Session

variable {R : Engine → Engine → Prop} {Ended : Engine → Prop} {s s' : Session} {a : Action}

/-- Frames of as many steps stay in step. -/
lemma frame (h : InStep R Ended) (related : R s.engine s'.engine)
    (budget : s'.settings.instructionsPerFrame = s.settings.instructionsPerFrame)
    (on : ¬ Ended (s.act .frame).state.engine) :
    Option.Rel (Transition.Alike fun s s' => R s.engine s'.engine) s.frame s'.frame := by
  have alike := h.stepsBelow related s.settings.instructionsPerFrame <| by
    rintro ⟨e, error | _, seen⟩ made ended
    · rw [act_frame (frame_of_error made)] at on
      exact on ended
    · rw [act_frame (frame_of_ok made)] at on
      exact on (h.lasts.tick ended)
  rw [Session.frame, Session.frame, budget]
  generalize s.engine.stepsBelow _ = made at alike ⊢
  generalize s'.engine.stepsBelow _ = made' at alike ⊢
  cases alike with
  | none => exact .none
  | @some _ _ alike =>
    cases alike with
    | @intro e e' result seen related' =>
      cases result with
      | error => exact .some (.intro related')
      | ok =>
        simp only [Option.map_some, endFrame, h.executed related, h.executed related',
          h.halted related']
        exact .some (.intro (h.ticked related'))

/-- An action keeps sessions in step until they end. -/
lemma act (h : InStep R Ended) (keeps : a.KeepsPolicy) (related : R s.engine s'.engine)
    (budget : s'.settings.instructionsPerFrame = s.settings.instructionsPerFrame)
    (on : ¬ Ended (s.act a).state.engine) :
    Transition.Alike (fun s s' => R s.engine s'.engine) (s.act a) (s'.act a) := by
  cases a with
  | load | reset | setPolicy => exact keeps.elim
  | step =>
    have alike := h.step related on
    simp only [Session.act, Session.step]
    generalize s.engine.step = t at alike ⊢
    generalize s'.engine.step = t' at alike ⊢
    cases alike with
    | intro related' => exact .intro related'
  | frame =>
    have alike := h.frame related budget on
    simp only [Session.act]
    generalize s.frame = made at alike ⊢
    generalize s'.frame = made' at alike ⊢
    cases alike with
    | none => exact .intro related
    | @some _ _ alike =>
      cases alike with
      | intro related' => exact .intro related'
  | tick => exact .intro (h.ticked related)
  | setKey index down =>
    cases known : Digit.ofNumber? index with
    | none =>
      rw [act_setKey_unknown known, act_setKey_unknown known]
      exact .intro related
    | some key =>
      rw [act_setKey known, act_setKey known, show s'.machine = s.machine from h.machine related]
      exact .intro (h.withKeypad related _)
  | releaseKeys =>
    simp only [Session.act, releaseKeys, show s'.machine = s.machine from h.machine related]
    exact .intro (h.withMachine related _)
  | setHook hooked => exact .intro (h.hook hooked related)

/-- Where the relation has ended, it does not begin again. -/
lemma ended_act (h : InStep R Ended) (keeps : a.KeepsPolicy) (ended : Ended s.engine) :
    Ended (s.act a).state.engine := by
  cases a with
  | load | reset | setPolicy => exact keeps.elim
  | setHook hooked => exact h.ended_hook hooked ended
  | setKey index down =>
    cases known : Digit.ofNumber? index with
    | none => rwa [act_setKey_unknown known]
    | some key => exact h.lasts.act ⟨key, known⟩ ended
  | step | frame | tick | releaseKeys => exact h.lasts.act trivial ended

/-- Sessions that have ended stay so whatever goes on. -/
lemma ended_after (h : InStep R Ended) {acts : List Action} (keep : ∀ a ∈ acts, a.KeepsPolicy)
    (ended : Ended s.engine) : Ended (s.after acts).engine := by
  induction acts generalizing s with
  | nil => exact ended
  | cons a rest ih =>
    obtain ⟨first, others⟩ := List.forall_mem_cons.1 keep
    exact ih others (h.ended_act first ended)

/-- Sessions stay in step over any actions that go on with program and policy. -/
lemma after (h : InStep R Ended) {acts : List Action} (keep : ∀ a ∈ acts, a.KeepsPolicy)
    (related : R s.engine s'.engine)
    (budget : s'.settings.instructionsPerFrame = s.settings.instructionsPerFrame)
    (on : ¬ Ended (s.after acts).engine) : R (s.after acts).engine (s'.after acts).engine := by
  induction acts generalizing s s' with
  | nil => exact related
  | cons a rest ih =>
    obtain ⟨first, others⟩ := List.forall_mem_cons.1 keep
    have next : ¬ Ended (s.act a).state.engine := by
      intro ended
      have last : Ended ((s.act a).state.after rest).engine := h.ended_after others ended
      exact on last
    have alike := h.act first related budget next
    refine ih others ?_ ?_ on
    · generalize s.act a = t at alike ⊢
      generalize s'.act a = t' at alike ⊢
      cases alike with
      | intro related' => exact related'
    · rw [(configuration_act s' a).1, (configuration_act s a).1, budget]

end Engine.InStep

end Chip8
