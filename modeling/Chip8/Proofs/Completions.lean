import Chip8.Proofs.Calls
import Chip8.Proofs.Lockstep
/-!
# One instruction after another

What a run completes, as the list of its instructions (`Session.completions`). As in
`Session.unrolled`, frames are taken apart before. A step either completes the instruction at the
program counter (`Engine.state_of_completing`) or touches neither timers nor random bytes
(`Engine.rest_of_completing_none`).

Two sessions are compared instruction by instruction. `Session.Accompanies` is for relations that
may depend on the instructions still to be completed, and that every action keeps but a frame. Such
a relation is kept by any actions (`Accompanies.after`), and frames come to the same steps in both
sessions (`Accompanies.unrolled`), at least as far as the relation is kept (`Accompanies.past`). How
far that is may be in the middle of a frame, also of one that has no end (`Session.Past`).
-/

namespace Chip8

/-- The states behind two transitions that are alike are alike. -/
lemma Transition.Alike.state {σ α : Type} {R : σ → σ → Prop} {t t' : Transition σ α}
    (alike : Alike R t t') : R t.state t'.state := by
  cases alike with
  | intro related => exact related

namespace Engine

variable {e e' : Engine} {ins : Instruction}

/-- A step that is going to complete an instruction leaves what that instruction leaves. -/
lemma state_of_completing (known : e.completing? = some ins) :
    ∃ word, e.machine.wordAt e.machine.pc = .ok word ∧ Instruction.decode word = ins ∧
      ins.obstacle e.policy e.machine = none ∧ e.step.state = e.completed word := by
  obtain ⟨⟨running, awake, a, word, fetches, row⟩, done⟩ := completing?_eq_some_iff.1 known
  have fetched := Machine.wordAt_pc_eq_ok_iff.2 ⟨a, fetches⟩
  have way := e.step_stepped
  generalize e.step = t at way done
  cases way with
  | halted stopped => cases running.symm.trans stopped
  | polled _ waits => cases awake.symm.trans waits
  | unfetched | stopped => cases done
  | completed _ _ fetched' clear =>
    cases fetched.symm.trans fetched'
    rw [row.decode_eq] at clear
    exact ⟨word, fetched, row.decode_eq, clear, rfl⟩

/-- A step that is not going to complete an instruction draws no random byte and leaves the timers
alone. -/
lemma rest_of_completing_none (nothing : e.completing? = none) :
    e.step.state.random = e.random ∧ e.step.state.machine.delay = e.machine.delay ∧
      e.step.state.machine.sound = e.machine.sound := by
  have way := e.step_stepped
  have known ins := @completing?_eq_some_iff e ins
  generalize e.step = t at way known
  cases way with
  | halted | unfetched => exact ⟨rfl, rfl, rfl⟩
  | polled =>
    rw [poll_rest]
    exact ⟨rfl, rfl, rfl⟩
  | @completed word running awake fetched clear =>
    obtain ⟨a, fetches⟩ := Machine.wordAt_pc_eq_ok_iff.1 fetched
    have row := Instruction.describes_decode word
    have next := (known _).2 ⟨⟨running, awake, a, word, fetches, row⟩, rfl⟩
    cases nothing.symm.trans next
  | stopped _ _ _ _ remnant =>
    rw [remnant.rest]
    exact ⟨rfl, rfl, rfl⟩

/-- A word that is fetched and has no obstacle is going to be completed. -/
lemma completing?_of_fetched {word : UInt16} (running : e.fault = none)
    (awake : e.machine.keyWait = none) (fetched : e.machine.wordAt e.machine.pc = .ok word)
    (clear : (Instruction.decode word).obstacle e.policy e.machine = none) :
    e.completing? = some (.decode word) := by
  obtain ⟨a, fetches⟩ := Machine.wordAt_pc_eq_ok_iff.1 fetched
  exact completing?_of_describes running awake fetches (Instruction.describes_decode word) clear

/-- Engines with the same machine, fault and count of instructions make related steps, if what they
do with the word that they fetch is related. -/
lemma step_alike {R : Engine → Engine → Prop} (related : R e e')
    (machine : e'.machine = e.machine) (fault : e'.fault = e.fault)
    (change : ∀ m f n, R { e with machine := m, fault := f, executed := n }
      { e' with machine := m, fault := f, executed := n })
    (executed : e'.executed = e.executed)
    (run : ∀ word, e.fault = none → e.machine.keyWait = none →
      e.machine.wordAt e.machine.pc = .ok word → Transition.Alike R (e.run word) (e'.run word)) :
    Transition.Alike R e.step e'.step := by
  rw [step, step, fault, machine]
  cases running : e.fault with
  | some f => exact .intro related
  | none =>
    cases awake : e.machine.keyWait with
    | some target =>
      refine .intro ?_
      rw [poll, poll, machine]
      split
      case h_1 => exact related
      case h_2 =>
        rw [fault, executed]
        exact change _ _ _
    | none =>
      simp only [advance, machine]
      cases fetched : e.machine.wordAt e.machine.pc with
      | error f =>
        simp only [halt, executed]
        exact .intro (change _ _ _)
      | ok word => exact run word running awake fetched

end Engine

namespace Session

variable {s s' : Session} {a : Action} {acts : List Action} {later : List Instruction}

/-- The instruction that an action completes, frames being taken apart before. -/
def completed? (s : Session) : Action → Option Instruction
  | .step => s.engine.completing?
  | _ => none

/-- Only a step completes an instruction. -/
lemma completed?_of_ne_step (idle : a ≠ .step) : s.completed? a = none := by
  cases a with
  | step => exact absurd rfl idle
  | _ => rfl

/-- An action that runs no instruction starts anew or changes no more than the machine, the hook or
the policy. So it leaves related sessions of the same program and machine related. -/
lemma act_alike {R : Session → Session → Prop} (related : R s s') (whole : a ≠ .frame)
    (idle : a ≠ .step) (rom : s'.rom = s.rom) (machine : s'.machine = s.machine)
    (boot : ∀ rom, R (s.boot rom) (s'.boot rom))
    (withMachine : ∀ m, R (s.withMachine m) (s'.withMachine m))
    (setHook : ∀ on, R (s.act (.setHook on)).state (s'.act (.setHook on)).state)
    (setPolicy : ∀ policy, R (s.act (.setPolicy policy)).state (s'.act (.setPolicy policy)).state) :
    R (s.act a).state (s'.act a).state := by
  cases a with
  | load bytes =>
    cases fits : Rom.ofBytes bytes with
    | error =>
      rw [act_load_refused fits, act_load_refused fits]
      exact related
    | ok rom =>
      rw [act_load fits, act_load fits]
      exact boot rom
  | reset =>
    change R (s.boot s.rom) (s'.boot s'.rom)
    rw [rom]
    exact boot s.rom
  | step => exact absurd rfl idle
  | frame => exact absurd rfl whole
  | tick =>
    change R (s.withMachine s.machine.tick) (s'.withMachine s'.machine.tick)
    rw [machine]
    exact withMachine _
  | setKey index down =>
    cases known : Digit.ofNumber? index with
    | none =>
      rw [act_setKey_unknown known, act_setKey_unknown known]
      exact related
    | some key =>
      rw [act_setKey known, act_setKey known]
      change R (s.withMachine { s.machine with keypad := s.machine.keypad.press key down })
        (s'.withMachine { s'.machine with keypad := s'.machine.keypad.press key down })
      rw [machine]
      exact withMachine _
  | releaseKeys =>
    change R (s.withMachine { s.machine with keypad := _ })
      (s'.withMachine { s'.machine with keypad := _ })
    rw [machine]
    exact withMachine _
  | setHook on => exact setHook on
  | setPolicy policy => exact setPolicy policy

/-- What a new start and changes of the machine, the hook and the policy keep is kept by any action
that runs no instruction. -/
lemma act_keeps {P : Session → Prop} (holds : P s) (whole : a ≠ .frame) (idle : a ≠ .step)
    (boot : ∀ rom, P (s.boot rom)) (withMachine : ∀ m, P (s.withMachine m))
    (setHook : ∀ on, P (s.act (.setHook on)).state)
    (setPolicy : ∀ policy, P (s.act (.setPolicy policy)).state) : P (s.act a).state :=
  @act_alike s s a (fun t _ => P t) holds whole idle rfl rfl boot withMachine setHook setPolicy

/-- The instructions that are completed in the course of some actions, one after the other. -/
def completions (s : Session) : List Action → List Instruction
  | [] => []
  | a :: rest => (s.completed? a).toList ++ (s.act a).state.completions rest

/-- The instructions that actions complete are those that their parts complete. -/
lemma completions_append (s : Session) (acts acts' : List Action) :
    s.completions (acts ++ acts') = s.completions acts ++ (s.after acts).completions acts' := by
  induction acts generalizing s with
  | nil => rfl
  | cons a rest ih =>
    rw [List.cons_append, completions, ih, completions, List.append_assoc]
    rfl

/-- Whether some actions come to an end. -/
def Returns (s : Session) : List Action → Prop
  | [] => True
  | a :: rest => (a = .frame → s.frame ≠ none) ∧ (s.act a).state.Returns rest

/-- What has happened at some time in the course of some actions, frames being taken apart. In a
frame that has no end that may be any number of steps, and no action comes after it. -/
inductive Past : Session → List Action → List Action → Prop where
  | nil {s : Session} :
    Past s [] []
  | early {s : Session} {a : Action} {rest past : List Action} :
    past <+: s.parts a →
    Past s (a :: rest) past
  | endless {s : Session} {rest : List Action} (n : Nat) :
    s.frame = none →
    Past s (.frame :: rest) (.replicate n .step)
  | later {s : Session} {a : Action} {rest past : List Action} :
    (a = .frame → s.frame ≠ none) →
    Past (s.act a).state rest past →
    Past s (a :: rest) (s.parts a ++ past)

/-- If some actions come to an end, what they come to has happened step by step. -/
lemma past_of_prefix {past : List Action} (returns : s.Returns acts)
    (early : past <+: s.unrolled acts) : s.Past acts past := by
  induction acts generalizing s past with
  | nil =>
    rw [List.prefix_nil.1 early]
    exact .nil
  | cons a rest ih =>
    rw [unrolled] at early
    obtain short | ⟨others, rfl⟩ := List.prefix_or_prefix_of_prefix early (List.prefix_append _ _)
    · exact .early short
    · exact .later returns.1 (ih returns.2 ((List.prefix_append_right_inj _).1 early))

/-- There are no frames in the past. -/
lemma ne_frame_of_mem_past {past : List Action} {b : Action} (h : s.Past acts past)
    (member : b ∈ past) : b ≠ .frame := by
  have single {s : Session} {a : Action} (part : b ∈ s.parts a) : b ≠ .frame := by
    obtain rfl | rfl | ⟨rfl, whole⟩ := mem_parts part
    · exact Action.noConfusion
    · exact Action.noConfusion
    · exact whole
  induction h with
  | nil => cases member
  | early early => exact single (early.subset member)
  | endless =>
    rw [List.eq_of_mem_replicate member]
    exact Action.noConfusion
  | later _ _ ih =>
    rw [List.mem_append] at member
    exact member.elim single ih

/-- How many steps a frame makes depends on nothing but the budget and on which step fails. -/
lemma endsAfter_of_fault {n : Nat}
    (ends : s.engine.EndsAfter s.settings.instructionsPerFrame n)
    (budget : s'.settings.instructionsPerFrame = s.settings.instructionsPerFrame)
    (fault : (s'.afterSteps n).engine.fault = (s.afterSteps n).engine.fault) :
    s'.engine.EndsAfter s'.settings.instructionsPerFrame n := by
  refine ⟨budget ▸ ends.allows, ?_⟩
  rw [budget, halted_steps, Engine.halted, fault, ← Engine.halted, ← halted_steps]
  exact ends.stops

/-- A frame has no end if and only if its steps have none. -/
lemma frame_eq_none_iff :
    s.frame = none ↔ ∀ n, ¬ s.engine.EndsAfter s.settings.instructionsPerFrame n := by
  rw [frame, Option.map_eq_none_iff, Option.eq_none_iff_forall_ne_some]
  simp only [ne_eq, Engine.stepsBelow_eq_some_iff, not_exists, not_and]
  exact ⟨fun never n ends => never _ n ends rfl, fun never _ n ends _ => never n ends⟩

/-- The steps of a frame that has an end are those after which it ends. -/
lemma endsAfter_frameSteps (done : s.frame ≠ none) :
    s.engine.EndsAfter s.settings.instructionsPerFrame s.frameSteps := by
  rw [ne_eq, frame_eq_none_iff, not_forall_not] at done
  exact Nat.sInf_mem done

/-- A frame makes no more steps than it takes to its end. -/
lemma frameSteps_le {n : Nat} (ends : s.engine.EndsAfter s.settings.instructionsPerFrame n) :
    s.frameSteps ≤ n := Nat.sInf_le ends

/-- A frame fails exactly if its steps stop an engine that has not stopped before. -/
lemma isOk_frame {t : Transition Session FrameReport} (done : s.frame = some t) : t.result.isOk =
    ((s.afterSteps 0).engine.fault.isSome ||
      (s.afterSteps s.frameSteps).engine.fault.isNone) := by
  rw [show s.afterSteps 0 = s from rfl, afterSteps, after_replicate_step s .none]
  rcases run : s.engine.stepsBelow s.settings.instructionsPerFrame with _ | ⟨e, error | _, seen⟩
  · rw [frame_of_endless run] at done
    cases done
  · rw [frame_of_error run] at done
    cases done
    have made : s.engine.stepsFrom .none s.frameSteps = _ := stepsBelow_frameSteps run
    obtain ⟨k, e₁, seen₁, -, failed, rfl⟩ := Engine.stepsFrom_error made
    obtain ⟨f, rfl⟩ := Engine.error_step failed
    rw [made]
    cases running : s.engine.fault with
    | some g =>
      cases congrArg Transition.result ((Engine.steps_of_stopped running _).symm.trans made)
    | none =>
      simp only [withEngine, (Engine.step_of_thrown failed).1]
      rfl
  · rw [frame_of_ok run] at done
    cases done
    have made : s.engine.stepsFrom .none s.frameSteps = _ := stepsBelow_frameSteps run
    rw [made]
    cases running : s.engine.fault with
    | some f => rfl
    | none =>
      have still : e.fault = none := Engine.fault_stepsFrom running made
      simp only [withEngine, still]
      rfl

/-- Relations of sessions, given the instructions that the first of them is still to complete, that
every action keeps but for a frame. -/
structure Accompanies (R : List Instruction → Session → Session → Prop) : Prop where
  budget {s s' : Session} {later : List Instruction} :
    R later s s' → s'.settings.instructionsPerFrame = s.settings.instructionsPerFrame
  fault {s s' : Session} {later : List Instruction} :
    R later s s' → s'.engine.fault = s.engine.fault
  act {s s' : Session} {a : Action} {later : List Instruction} :
    a ≠ .frame → R ((s.completed? a).toList ++ later) s s' →
      R later (s.act a).state (s'.act a).state

namespace Accompanies

variable {R : List Instruction → Session → Session → Prop} {n : Nat}

/-- Sessions that go along do so over any actions, frames being taken apart before. -/
lemma after (h : Accompanies R) (whole : ∀ a ∈ acts, a ≠ .frame)
    (related : R (s.completions acts ++ later) s s') : R later (s.after acts) (s'.after acts) := by
  induction acts generalizing s s' with
  | nil => exact related
  | cons a rest ih =>
    obtain ⟨first, others⟩ := List.forall_mem_cons.1 whole
    rw [completions, List.append_assoc] at related
    exact ih others (h.act first related)

/-- Sessions that go along over some steps have had the same faults all the while. -/
lemma fault_afterSteps (h : Accompanies R)
    (related : R (s.completions (.replicate n .step) ++ later) s s') {m : Nat} (le : m ≤ n) :
    (s'.afterSteps m).engine.fault = (s.afterSteps m).engine.fault := by
  have steps : ∀ b ∈ List.replicate m Action.step, b ≠ .frame := by
    intro b member
    rw [List.eq_of_mem_replicate member]
    exact Action.noConfusion
  obtain ⟨rest, rfl⟩ := Nat.exists_eq_add_of_le le
  rw [List.replicate_add, completions_append, List.append_assoc] at related
  exact h.fault (h.after steps related)

/-- In sessions that go along over the steps of a frame, the frame has the same parts. -/
lemma frame (h : Accompanies R) (done : s.frame ≠ none)
    (related : R (s.completions (.replicate s.frameSteps .step) ++ later) s s') :
    s'.frame ≠ none ∧ s'.parts .frame = s.parts .frame := by
  have budget := h.budget related
  have faults {m : Nat} (le : m ≤ s.frameSteps) := h.fault_afterSteps related le
  have ends' := endsAfter_of_fault (endsAfter_frameSteps done) budget (faults (Nat.le_refl _))
  have done' : s'.frame ≠ none := fun endless => frame_eq_none_iff.1 endless _ ends'
  have steps : s'.frameSteps = s.frameSteps := by
    have le := frameSteps_le ends'
    have ends := endsAfter_of_fault (endsAfter_frameSteps done') budget.symm (faults le).symm
    exact Nat.le_antisymm le (frameSteps_le ends)
  refine ⟨done', ?_⟩
  obtain ⟨t, done⟩ := Option.ne_none_iff_exists'.1 done
  obtain ⟨t', done'⟩ := Option.ne_none_iff_exists'.1 done'
  rw [parts_frame done, parts_frame done', isOk_frame done, isOk_frame done', steps,
    faults (Nat.zero_le _), faults (Nat.le_refl _)]

/-- In sessions that go along, an action has the same parts. -/
lemma parts (h : Accompanies R) (ended : a = .frame → s.frame ≠ none)
    (related : R (s.completions (s.parts a) ++ later) s s') :
    (a = .frame → s'.frame ≠ none) ∧ s'.parts a = s.parts a := by
  cases a with
  | frame =>
    have done := ended rfl
    obtain ⟨t, framed⟩ := Option.ne_none_iff_exists'.1 done
    rw [parts_frame framed, completions_append, List.append_assoc] at related
    obtain ⟨done', same⟩ := h.frame done related
    exact ⟨fun _ => done', same⟩
  | _ => exact ⟨Action.noConfusion, rfl⟩

/-- Sessions that go along do so over an action, frames that have an end included. -/
lemma act_of_parts (h : Accompanies R) (ended : a = .frame → s.frame ≠ none)
    (related : R (s.completions (s.parts a) ++ later) s s') :
    R later (s.act a).state (s'.act a).state := by
  have whole : ∀ b ∈ s.parts a, b ≠ .frame :=
    fun b => ne_frame_of_mem_past (show s.Past [a] (s.parts a) from .early List.prefix_rfl)
  have next := h.after whole related
  rwa [after_parts, ← (h.parts ended related).2, after_parts] at next

/-- In sessions that go along, frames come to the same steps. -/
lemma unrolled (h : Accompanies R) (returns : s.Returns acts)
    (related : R (s.completions (s.unrolled acts) ++ later) s s') :
    s'.Returns acts ∧ s'.unrolled acts = s.unrolled acts := by
  induction acts generalizing s s' with
  | nil => exact ⟨trivial, rfl⟩
  | cons a rest ih =>
    obtain ⟨ended, others⟩ := returns
    rw [Session.unrolled, completions_append, List.append_assoc, after_parts] at related
    obtain ⟨ended', same⟩ := h.parts ended related
    obtain ⟨returns', rest_same⟩ := ih others (h.act_of_parts ended related)
    refine ⟨⟨ended', returns'⟩, ?_⟩
    rw [Session.unrolled, Session.unrolled, same, rest_same]

/-- Sessions that go along over some of the steps of a frame have these in common. -/
lemma past_frame (h : Accompanies R)
    (going : ∀ m < n, ¬ s.engine.EndsAfter s.settings.instructionsPerFrame m)
    (related : R (s.completions (.replicate n .step) ++ later) s s') (rest : List Action) :
    s'.Past (.frame :: rest) (.replicate n .step) := by
  cases framed : s'.frame with
  | none => exact .endless n framed
  | some t =>
    have steps : n ≤ s'.frameSteps := by
      refine Nat.le_of_not_lt fun less => going _ less ?_
      have ends' := endsAfter_frameSteps (s := s') (by rw [framed]; exact Option.some_ne_none t)
      exact endsAfter_of_fault ends' (h.budget related).symm
        (h.fault_afterSteps related (Nat.le_of_lt less)).symm
    obtain ⟨others, equal⟩ := Nat.exists_eq_add_of_le steps
    refine .early ?_
    rw [parts_frame framed, equal, List.replicate_add, List.append_assoc]
    exact List.prefix_append _ _

/-- Sessions that go along over the first parts of an action have these in common. -/
lemma past_parts (h : Accompanies R) {past : List Action} (early : past <+: s.parts a)
    (related : R (s.completions past ++ later) s s') (rest : List Action) :
    s'.Past (a :: rest) past := by
  cases a with
  | frame =>
    cases framed : s.frame with
    | none =>
      rw [parts_frame_of_endless framed] at early
      rw [List.prefix_nil.1 early]
      exact .early List.nil_prefix
    | some t =>
      have done : s.frame ≠ none := by rw [framed]; exact Option.some_ne_none t
      rw [parts_frame framed] at early
      obtain short | ⟨others, rfl⟩ := List.prefix_or_prefix_of_prefix early (List.prefix_append _ _)
      · obtain ⟨steps, equal⟩ := List.prefix_replicate_iff.1 short
        rw [equal] at related ⊢
        refine h.past_frame (fun m less ends => ?_) related rest
        exact Nat.not_lt_of_le (frameSteps_le ends) (Nat.lt_of_lt_of_le less steps)
      · rw [completions_append, List.append_assoc] at related
        refine .early ?_
        rwa [(h.frame done related).2, parts_frame framed]
  | _ => exact .early early

/-- Sessions that go along as far as some time have had the same past then. -/
lemma past (h : Accompanies R) {past : List Action} (early : s.Past acts past)
    (related : R (s.completions past ++ later) s s') : s'.Past acts past := by
  induction early generalizing s' with
  | nil => exact .nil
  | early early => exact h.past_parts early related _
  | endless n endless => exact h.past_frame (fun m _ => frame_eq_none_iff.1 endless m) related _
  | later ended _ ih =>
    rw [completions_append, List.append_assoc, after_parts] at related
    obtain ⟨ended', same⟩ := h.parts ended related
    rw [← same]
    exact .later ended' (ih (h.act_of_parts ended related))

end Accompanies

end Session

end Chip8
