import Chip8.Proofs.Faults
import Chip8.Proofs.Frames
import Chip8.Proofs.Invariants
import Chip8.Proofs.Reserved
/-!
# Calls and returns

Only calls and returns touch the call stack. `Engine.step_turn` lists what a step can make of it: a
call that is completed puts the address behind itself on top, a return takes the top and goes on
there, and everything else that a step can do, from a poll to a fault, leaves the stack alone. So
the depth counts the calls and returns since the last start (`Session.Balanced.after`), and as long
as no return gets down to a stack, that stack lies below whatever is called on top of it
(`Session.below_after`). `calls_match` says what this means for a run, each step of a frame being
spoken of by itself.
-/

namespace Chip8

namespace Instruction

variable {ins : Instruction}

/-- Whether an instruction is a call. -/
def isCall : Instruction → Bool
  | .call _ => true
  | _ => false

/-- Whether an instruction is a return. -/
def isReturn : Instruction → Bool
  | .ret => true
  | _ => false

/-- The call stack after an instruction at an address, the last call first. -/
def stackAfter (a : Nat) (stack : List Nat) : Instruction → List Nat
  | .call _ => (a + 2) :: stack
  | .ret => stack.tail
  | _ => stack

/-- The table changes the stack as the instruction does. -/
lemma stack_effect (s : View) (d : Dialect) (a byte : Nat) (ins : Instruction) :
    (s.effect d a byte ins).stack = ins.stackAfter a s.stack := by
  cases ins with
  | or | and | xor =>
    rw [View.effect, View.putLogic_eq]
    rfl
  | store | load =>
    rw [View.effect, View.moved_eq]
    rfl
  | _ => rfl

end Instruction

namespace Engine

variable {e e' : Engine} {ins : Instruction}

/-- The instruction that the next step is going to complete, if any. A wait for a key is completed
when it begins, not when it is over. -/
def completing? (e : Engine) : Option Instruction :=
  if !e.halted && e.machine.keyWait.isNone && e.step.result.isOk then
    (e.machine.wordAt e.machine.pc).toOption.map .decode
  else none

/-- An instruction is going to be completed if and only if it is next and the step succeeds. -/
lemma completing?_eq_some_iff :
    e.completing? = some ins ↔ e.IsAt ins ∧ e.step.result = .ok () := by
  rw [completing?, Option.ite_none_right_eq_some]
  simp only [Bool.and_eq_true, Bool.not_eq_true', Option.isNone_iff_eq_none]
  constructor
  · rintro ⟨⟨⟨runs, awake⟩, done⟩, next⟩
    have running : e.fault = none := by
      rwa [halted, Option.isSome_eq_false_iff, Option.isNone_iff_eq_none] at runs
    cases fetched : e.machine.wordAt e.machine.pc with
    | error fault =>
      rw [fetched] at next
      cases next
    | ok word =>
      rw [fetched] at next
      cases next
      obtain ⟨a, fetches⟩ := Machine.wordAt_pc_eq_ok_iff.1 fetched
      refine ⟨⟨running, awake, a, word, fetches, Instruction.describes_decode word⟩, ?_⟩
      cases result : e.step.result with
      | ok => rfl
      | error error =>
        rw [result] at done
        cases done
  · rintro ⟨⟨running, awake, a, word, fetches, row⟩, done⟩
    refine ⟨⟨⟨halted_of_running running, awake⟩, ?_⟩, ?_⟩
    · rw [done]
      rfl
    · rw [Machine.wordAt_pc_eq_ok_iff.2 ⟨a, fetches⟩, ← row.decode_eq]
      rfl

/-- An instruction is going to be completed that is next and that nothing stands in the way of. -/
lemma completing?_of_describes {a : Nat} {word : UInt16} (running : e.fault = none)
    (awake : e.machine.keyWait = none) (fetches : e.machine.view.Fetches a word)
    (row : ins.Describes word) (clear : ins.obstacle e.policy e.machine = none) :
    e.completing? = some ins :=
  completing?_eq_some_iff.2 ⟨⟨running, awake, a, word, fetches, row⟩,
    (step_of_describes running awake fetches row clear).1⟩

/-- What a step can make of the call stack. -/
inductive Turn (e e' : Engine) : Prop where
  | called {target} {a : Nat} :
    e.completing? = some (.call target) →
    e.machine.pc = .address a →
    e'.machine.view.stack = (a + 2) :: e.machine.view.stack →
    Turn e e'
  | returned {top rest} :
    e.completing? = some .ret →
    e.machine.view.stack = top :: rest →
    e'.machine.view.stack = rest →
    e'.machine.pc = .address top →
    Turn e e'
  | kept :
    (∀ ins, e.completing? = some ins → ins.isCall = false ∧ ins.isReturn = false) →
    e'.machine.view.stack = e.machine.view.stack →
    Turn e e'

/-- A look for a key does not touch the stack. -/
lemma stack_poll (target : Register) :
    (e.poll target).machine.view.stack = e.machine.view.stack := by
  rw [poll_rest]
  rfl

/-- An instruction that is completed. -/
lemma turn_completed {word : UInt16} (known : e.completing? = some (.decode word))
    (fetched : e.machine.wordAt e.machine.pc = .ok word)
    (clear : (Instruction.decode word).obstacle e.policy e.machine = none) :
    e.Turn (e.completed word) := by
  obtain ⟨a, fetches, view⟩ := view_completed fetched clear
  have stack := congrArg View.stack view
  rw [Instruction.stack_effect] at stack
  generalize Instruction.decode word = ins at known clear view stack
  cases ins with
  | call target => exact .called known fetches.1 stack
  | ret =>
    cases top : e.machine.view.stack with
    | nil =>
      have empty : e.machine.stack = [] := List.map_eq_nil_iff.1 top
      rw [Instruction.obstacle, if_pos empty] at clear
      cases clear
    | cons target rest =>
      rw [top] at stack
      refine .returned known top stack ((congrArg View.pc view).trans ?_)
      simp only [View.effect, View.goTo, top, List.headD_cons]
  | _ =>
    refine .kept ?_ stack
    rintro ins same
    cases known.symm.trans same
    exact ⟨rfl, rfl⟩

/-- Every step either completes a call, completes a return or leaves the call stack alone. -/
lemma step_turn (e : Engine) : e.Turn e.step.state := by
  have way := e.step_stepped
  have known ins := @completing?_eq_some_iff e ins
  generalize e.step = t at way known
  cases way with
  | halted stopped =>
    refine .kept ?_ rfl
    intro ins next
    have running := ((known ins).1 next).1.1
    cases stopped.symm.trans running
  | polled _ waits =>
    refine .kept ?_ (stack_poll _)
    intro ins next
    have awake := ((known ins).1 next).1.2.1
    cases waits.symm.trans awake
  | unfetched =>
    refine .kept ?_ rfl
    intro ins next
    cases ((known ins).1 next).2
  | @completed word running awake fetched clear =>
    obtain ⟨a, fetches⟩ := Machine.wordAt_pc_eq_ok_iff.1 fetched
    have row := Instruction.describes_decode word
    have next := (known _).2 ⟨⟨running, awake, a, word, fetches, row⟩, rfl⟩
    exact turn_completed next fetched clear
  -- An instruction that was not completed has changed memory and registers at most.
  | stopped _ _ _ _ remnant =>
    refine .kept ?_ ?_
    · intro ins next
      cases ((known ins).1 next).2
    · rw [remnant.rest]
      rfl

end Engine

namespace Action

/-- Whether an action makes a new start: a load that is accepted, or a reset. -/
def startsAnew : Action → Bool
  | .load bytes => (Rom.ofBytes bytes).isOk
  | .reset => true
  | _ => false

end Action

namespace Session

variable {s u : Session} {a : Action} {acts between : List Action} {done : List Instruction}
  {base : List Nat} {c : Nat}

/-- The return addresses, the last call first. -/
def stack (s : Session) : List Nat := s.machine.view.stack

/-- How many calls have not returned. -/
def depth (s : Session) : Nat := s.stack.length

/-- The stack is empty when a program starts anew. -/
lemma stack_of_startsAnew (anew : a.startsAnew = true) : (s.act a).state.stack = [] := by
  cases a with
  | load bytes =>
    cases fits : Rom.ofBytes bytes with
    | error =>
      rw [Action.startsAnew, fits] at anew
      cases anew
    | ok rom =>
      rw [act_load fits]
      rfl
  | reset => rfl
  | _ => cases anew

/-- Between two steps nothing but a new start touches the call stack. -/
lemma stack_act (whole : a ≠ .frame) (still : a ≠ .step) (same : a.startsAnew = false) :
    (s.act a).state.stack = s.stack := by
  cases a with
  | load bytes =>
    cases fits : Rom.ofBytes bytes with
    | error =>
      rw [act_load_refused fits]
    | ok rom =>
      rw [Action.startsAnew, fits] at same
      cases same
  | reset => cases same
  | step => exact absurd rfl still
  | frame => exact absurd rfl whole
  | setKey index down =>
    cases known : Digit.ofNumber? index with
    | none => rw [act_setKey_unknown known]
    | some key =>
      rw [act_setKey known]
      rfl
  | tick | releaseKeys | setHook | setPolicy => rfl

/-- The instructions that have been completed since the last start after another action. What a
frame completes is not looked at, frames being taken apart before. -/
def record (s : Session) (done : List Instruction) : Action → List Instruction
  | .step => done ++ s.engine.completing?.toList
  | a => if a.startsAnew then [] else done

/-- The instructions that have been completed since the last start after some more actions. -/
def recordAll (s : Session) (done : List Instruction) : List Action → List Instruction
  | [] => done
  | a :: rest => (s.act a).state.recordAll (s.record done a) rest

/-- The depth is that of as many calls, and as many returns, as have been completed. -/
def Balanced (s : Session) (done : List Instruction) : Prop :=
  s.depth + done.countP Instruction.isReturn = done.countP Instruction.isCall

/-- A step keeps the depth in balance. -/
lemma Balanced.step (balanced : s.Balanced done) :
    s.step.state.Balanced (done ++ s.engine.completing?.toList) := by
  rw [Balanced, List.countP_append, List.countP_append]
  rw [Balanced] at balanced
  have turn := s.engine.step_turn
  cases turn with
  | called known _ stack =>
    have depth : s.step.state.depth = s.depth + 1 := congrArg List.length stack
    rw [known, depth]
    simp only [Option.toList_some, List.countP_singleton, Instruction.isCall, Instruction.isReturn,
      if_true, Bool.false_eq_true, if_false]
    omega
  | returned known top stack _ =>
    have depth : s.depth = s.step.state.depth + 1 :=
      (congrArg List.length top).trans (congrArg (fun rest => List.length rest + 1) stack.symm)
    rw [depth] at balanced
    rw [known]
    simp only [Option.toList_some, List.countP_singleton, Instruction.isCall, Instruction.isReturn,
      if_true, Bool.false_eq_true, if_false]
    omega
  | kept other stack =>
    have depth : s.step.state.depth = s.depth := congrArg List.length stack
    rw [depth]
    cases known : s.engine.completing? with
    | none => exact balanced
    | some ins =>
      obtain ⟨notCall, notReturn⟩ := other ins known
      simp only [Option.toList_some, List.countP_singleton, notCall, notReturn]
      exact balanced

/-- An action that is no frame keeps the depth in balance. -/
lemma Balanced.act (balanced : s.Balanced done) (whole : a ≠ .frame) :
    (s.act a).state.Balanced (s.record done a) := by
  by_cases still : a = .step
  · subst still
    exact balanced.step
  have recorded : s.record done a = if a.startsAnew then [] else done := by
    cases a with
    | step => exact absurd rfl still
    | _ => rfl
  rw [recorded, Balanced, depth]
  cases anew : a.startsAnew with
  | true =>
    rw [stack_of_startsAnew anew]
    rfl
  | false =>
    rw [stack_act whole still anew]
    exact balanced

/-- The depth counts the calls and returns since the last start. -/
lemma Balanced.after (balanced : s.Balanced done) (whole : ∀ a ∈ acts, a ≠ .frame) :
    (s.after acts).Balanced (s.recordAll done acts) := by
  induction acts generalizing s done with
  | nil => exact balanced
  | cons a rest ih =>
    obtain ⟨first, others⟩ := List.forall_mem_cons.1 whole
    exact ih (balanced.act first) others

/-- A call that is completed leaves the address behind itself on top. -/
lemma stack_step_of_call {target : Address} (call : s.engine.completing? = some (.call target))
    (pc : s.machine.pc = .address c) : s.step.state.stack = (c + 2) :: s.stack := by
  have turn := s.engine.step_turn
  cases turn with
  | @called _ a _ at_ stack =>
    have place := pc.symm.trans at_
    simp only [Place.address.injEq, Int.natCast_inj] at place
    rw [place]
    exact stack
  | returned known => cases call.symm.trans known
  | kept other =>
    obtain ⟨notCall, -⟩ := other _ call
    cases notCall

/-- A return that is completed takes the top and goes on there. -/
lemma step_of_return (ret : s.engine.completing? = some .ret) :
    ∃ top, s.stack = top :: s.step.state.stack ∧ s.step.state.machine.pc = .address top := by
  have turn := s.engine.step_turn
  cases turn with
  | called known => cases ret.symm.trans known
  | @returned top rest _ full stack pc =>
    have last : s.step.state.stack = rest := stack
    rw [last]
    exact ⟨top, full, pc⟩
  | kept other =>
    obtain ⟨-, notReturn⟩ := other _ ret
    cases notReturn

/-- A stack stays below as long as no return gets down to it. -/
lemma below_act (below : base <:+ s.stack) (whole : a ≠ .frame) (same : a.startsAnew = false)
    (above : a = .step → s.engine.completing? = some .ret →
      s.step.state.depth + 1 ≠ base.length) : base <:+ (s.act a).state.stack := by
  by_cases still : a = .step
  · subst still
    have turn := s.engine.step_turn
    change base <:+ s.engine.step.state.machine.view.stack
    cases turn with
    | called _ _ stack =>
      rw [stack]
      exact below.trans (List.suffix_cons _ _)
    | @returned top rest known full stack _ =>
      rw [stack]
      rw [Session.stack, Session.machine, full] at below
      obtain all | less := List.suffix_cons_iff.1 below
      · have depth : s.step.state.depth = rest.length := congrArg List.length stack
        rw [all, List.length_cons, ← depth] at above
        exact absurd rfl (above rfl known)
      · exact less
    | kept _ stack =>
      rw [stack]
      exact below
  · rwa [stack_act whole still same]

/-- The stack does not come up to a base again as long as no return goes back to it. -/
lemma below_after (below : base <:+ s.stack) (whole : ∀ a ∈ acts, a ≠ .frame)
    (same : ∀ a ∈ acts, a.startsAnew = false)
    (above : ∀ mid, mid ++ [.step] <+: acts → (s.after mid).engine.completing? = some .ret →
      (s.after mid).step.state.depth + 1 ≠ base.length) : base <:+ (s.after acts).stack := by
  induction acts generalizing s with
  | nil => exact below
  | cons a rest ih =>
    obtain ⟨whole, wholes⟩ := List.forall_mem_cons.1 whole
    obtain ⟨same, sames⟩ := List.forall_mem_cons.1 same
    refine ih (below_act below whole same ?_) wholes sames ?_
    · rintro rfl
      exact above [] (List.cons_prefix_cons.2 ⟨rfl, List.nil_prefix⟩)
    · intro mid early
      exact above (a :: mid) (List.cons_prefix_cons.2 ⟨rfl, early⟩)

/-- A call at an address that a session is about to complete, the actions that follow, and the
return after them, which is the first one to bring the depth back to what it was. -/
structure Matched (u : Session) (c : Nat) (between : List Action) : Prop where
  call : ∃ target, u.engine.completing? = some (.call target)
  pc : u.machine.pc = .address c
  ongoing : ∀ a ∈ between, a.startsAnew = false
  ret : (u.step.state.after between).engine.completing? = some .ret
  back : (u.step.state.after between).step.state.depth = u.depth
  first : ∀ mid, mid ++ [.step] <+: between →
    (u.step.state.after mid).engine.completing? = some .ret →
    (u.step.state.after mid).step.state.depth ≠ u.depth

/-- The return address stays on the stack of the call, above what was there. -/
lemma Matched.below (h : u.Matched c between) (whole : ∀ a ∈ between, a ≠ .frame)
    {mid : List Action} (early : mid <+: between) :
    (c + 2) :: u.stack <:+ (u.step.state.after mid).stack := by
  refine below_after ?_ (fun a member => whole a (early.subset member))
    (fun a member => h.ongoing a (early.subset member)) ?_
  · obtain ⟨target, call⟩ := h.call
    have pushed := stack_step_of_call call h.pc
    exact ⟨[], pushed.symm⟩
  · intro mid' early' known back
    exact h.first mid' (early'.trans early) known (Nat.succ.inj back)

/-- The return goes on behind the call, with the stack as it was. -/
lemma Matched.return (h : u.Matched c between) (whole : ∀ a ∈ between, a ≠ .frame) :
    (u.step.state.after between).step.state.machine.pc = .address (c + 2 : Nat) ∧
      (u.step.state.after between).step.state.stack = u.stack := by
  have below := h.below whole List.prefix_rfl
  obtain ⟨top, full, pc⟩ := step_of_return h.ret
  -- What is below the top is as deep as what was below the return address.
  have same : (c + 2) :: u.stack = top :: (u.step.state.after between).step.state.stack := by
    rw [full] at below
    exact below.eq_of_length (congrArg (· + 1) h.back.symm)
  obtain ⟨top, stack⟩ := List.cons.inj same
  rw [top]
  exact ⟨pc, stack.symm⟩

/-- The return address at a position of the call stack, counted from the first call. -/
def returnAt? (s : Session) (k : Nat) : Option Nat := s.stack.reverse[k]?

/-- What is below in the stack is at the same positions, counted from the first call. -/
lemma returnAt?_of_below (below : c :: u.stack <:+ s.stack) :
    s.returnAt? u.depth = some c ∧ ∀ k < u.depth, s.returnAt? k = u.returnAt? k := by
  obtain ⟨above, e⟩ := below
  have upright : s.stack.reverse = u.stack.reverse ++ c :: above.reverse := by
    rw [← e, List.reverse_append, List.reverse_cons, List.append_assoc, List.singleton_append]
  refine ⟨?_, ?_⟩
  · rw [returnAt?, upright, depth, ← List.length_reverse,
      List.getElem?_append_right (Nat.le_refl _),
      Nat.sub_self, List.getElem?_cons_zero]
  · intro k less
    rw [depth, ← List.length_reverse] at less
    rw [returnAt?, upright, List.getElem?_append_left less, returnAt?]

/-- Whether the next step fails with a fault of the machine and leaves the call stack alone. -/
def FailsWith (s : Session) (fault : MachineFault) : Prop :=
  (∃ word, s.step.result = .error (.stopped ⟨.machine fault, s.machine.pc, word⟩)) ∧
    s.step.state.stack = s.stack

/-- An instruction that something stands in the way of fails and leaves the stack alone. -/
lemma failsWith_of_obstacle {ins : Instruction} {fault : MachineFault} (next : s.engine.IsAt ins)
    (blocked : ins.obstacle s.engine.policy s.machine = some (.machine fault)) :
    s.FailsWith fault := by
  obtain ⟨running, awake, a, word, fetches, row⟩ := next
  rw [← row.decode_eq] at blocked
  have failed : s.engine.step.result =
      .error (.stopped ⟨.machine fault, s.machine.pc, word⟩) :=
    (Engine.step_eq_error_iff running awake).2
      (.inr ⟨Machine.wordAt_pc_eq_ok_iff.2 ⟨a, fetches⟩, blocked⟩)
  refine ⟨⟨word, failed⟩, ?_⟩
  have turn := s.engine.step_turn
  cases turn with
  | called known | returned known =>
    have done := (Engine.completing?_eq_some_iff.1 known).2
    cases failed.symm.trans done
  | kept _ stack => exact stack

/-- Calls and returns match in every run, its frames being taken apart into steps. At any time the
depth counts the calls and returns that were completed since the last start, and is at most sixteen;
a call at depth sixteen and a return at depth zero fail and leave the call stack alone. When a call
at `c` is followed, without a new start, by the first return that brings its depth back, the run
goes on at `c + 2` with the call stack as it was. At any time in between, `c + 2` is at the position
of the call, above what was there before. -/
theorem calls_match (settings : Settings) (tracing : Tracing) (random : RandomSource)
    (acts : List Action) :
    let s := start settings tracing random
    s.after (s.unrolled acts) = s.after acts ∧
      (∀ a ∈ s.unrolled acts, a ≠ .frame) ∧
      (∀ past, past <+: s.unrolled acts →
        (s.after past).Balanced (s.recordAll [] past) ∧ (s.after past).depth ≤ 16 ∧
        (∀ target, (s.after past).engine.IsAt (.call target) → (s.after past).depth = 16 →
          (s.after past).FailsWith .stackOverflow) ∧
        ((s.after past).engine.IsAt .ret → (s.after past).depth = 0 →
          (s.after past).FailsWith .stackUnderflow)) ∧
      ∀ before between u c, before ++ .step :: between ++ [.step] <+: s.unrolled acts →
        u = s.after before → u.Matched c between →
        (u.step.state.after between).step.state.machine.pc = .address (c + 2 : Nat) ∧
        (u.step.state.after between).step.state.stack = u.stack ∧
        ∀ mid, mid <+: between →
          (u.step.state.after mid).returnAt? u.depth = some (c + 2) ∧
          ∀ k < u.depth, (u.step.state.after mid).returnAt? k = u.returnAt? k := by
  intro s
  have whole : ∀ a ∈ s.unrolled acts, a ≠ .frame := fun a => ne_frame_of_mem_unrolled
  refine ⟨s.after_unrolled acts, whole, ?_, ?_⟩
  · intro past early
    have reachable := (Reachable.start settings tracing random).after past
    have fresh : s.Balanced [] := rfl
    have ranges := (ranges_of_reachable reachable).1
    refine ⟨fresh.after fun a member => whole a (early.subset member), ranges.depth, ?_, ?_⟩
    · intro target next full
      have length : (s.after past).machine.stack.length = 16 :=
        (List.length_map _).symm.trans full
      exact failsWith_of_obstacle next (if_pos (Nat.le_of_eq length.symm))
    · intro next empty
      have nil : (s.after past).machine.stack = [] :=
        List.map_eq_nil_iff.1 (List.length_eq_zero_iff.1 empty)
      exact failsWith_of_obstacle next (if_pos nil)
  · rintro before between u c early - matched
    have within : ∀ a ∈ between, a ≠ .frame := by
      intro a member
      refine whole a (early.subset ?_)
      simp only [List.mem_append, List.mem_cons]
      exact .inl (.inr (.inr member))
    obtain ⟨pc, stack⟩ := matched.return within
    refine ⟨pc, stack, ?_⟩
    intro mid first
    exact returnAt?_of_below (matched.below within first)

/-- The program that calls, calls again from there and returns twice. -/
def nested : Rom := ⟨[0x22, 0x04, 0x12, 0x02, 0x22, 0x08, 0x00, 0xEE, 0x00, 0xEE], by decide⟩

/-- The inner call and return of the program within the outer ones. -/
theorem calls_match_nested :
    ∃ u : Session, u.Matched 0x200 [.step, .step] ∧
      u.step.state.step.state.stack = [0x206, 0x202] ∧
      (u.step.state.after [.step, .step]).step.state.machine.pc = .address 0x202 := by
  obtain ⟨u, boots, begins, empty⟩ : ∃ u : Session,
      u = (start {} .off (.cycle [])).after [.load nested.bytes] ∧ u.Begins nested ∧
        u.stack = [] :=
    ⟨_, (congrArg Transition.state (act_load (Rom.ofBytes_eq_ok_iff.2 rfl))).symm,
      begins_boot (.start {} .off (.cycle [])) nested, rfl⟩
  have shallow : u.depth = 0 := congrArg List.length empty
  -- The two calls, with room on the stack.
  have room {s : Session} {target : Address} (shallow : s.depth < 16) :
      (Instruction.call target).obstacle s.engine.policy s.machine = none := by
    refine if_neg (Nat.not_le.2 ?_)
    rwa [depth, Session.stack, Machine.view, List.length_map] at shallow
  have row₁ : (Instruction.call 0x204).Describes 0x2204 := Instruction.describes_decode 0x2204
  have follows := begins.follows
  have clear₁ : (Instruction.call 0x204).obstacle u.engine.policy u.machine = none := by
    refine room ?_
    rw [shallow]
    decide
  obtain ⟨done₁, follows₁, -⟩ := follows.step 0x2204 4 ⟨by decide, rfl⟩ clear₁ ⟨rfl, rfl, rfl⟩
  have next₁ := Engine.completing?_eq_some_iff.2 ⟨follows.isAt ⟨by decide, rfl⟩ row₁, done₁⟩
  have stack₁ : u.step.state.stack = [0x202] := by
    rw [stack_step_of_call next₁ begins.pc, empty]
  have row₂ : (Instruction.call 0x208).Describes 0x2208 := Instruction.describes_decode 0x2208
  have clear₂ : (Instruction.call 0x208).obstacle u.step.state.engine.policy
      u.step.state.machine = none := by
    refine room ?_
    rw [depth, stack₁]
    decide
  obtain ⟨done₂, follows₂, -⟩ := follows₁.step 0x2208 8 ⟨by decide, rfl⟩ clear₂ ⟨rfl, rfl, rfl⟩
  have next₂ : u.step.state.engine.completing? = some (.call 0x208) :=
    Engine.completing?_eq_some_iff.2 ⟨follows₁.isAt ⟨by decide, rfl⟩ row₂, done₂⟩
  have at₂ : u.step.state.machine.pc = .address 0x204 := follows₁.pc
  have stack₂ : u.step.state.step.state.stack = [0x206, 0x202] := by
    rw [stack_step_of_call next₂ at₂, stack₁]
  -- The two returns, with something to take from the stack.
  have taken {s : Session} {top : Nat} {rest : List Nat} (full : s.stack = top :: rest) :
      Instruction.ret.obstacle s.engine.policy s.machine = none := by
    refine if_neg ?_
    intro nil
    cases full.symm.trans (List.map_eq_nil_iff.2 nil)
  have row₃ : Instruction.ret.Describes 0x00EE := Instruction.describes_decode 0x00EE
  have home := congrArg (fun stack : List Nat => Place.address (stack.headD 0 : Nat)) stack₂
  obtain ⟨done₃, follows₃, -⟩ :=
    follows₂.step 0x00EE 6 ⟨by decide, rfl⟩ (taken stack₂) ⟨home, rfl, rfl⟩
  have next₃ : u.step.state.step.state.engine.completing? = some .ret :=
    Engine.completing?_eq_some_iff.2 ⟨follows₂.isAt ⟨by decide, rfl⟩ row₃, done₃⟩
  obtain ⟨top₃, full₃, -⟩ := step_of_return next₃
  obtain ⟨rfl, stack₃⟩ := List.cons.inj (stack₂.symm.trans full₃)
  have next₄ : u.step.state.step.state.step.state.engine.completing? = some .ret :=
    Engine.completing?_of_describes follows₃.running follows₃.awake
      (follows₃.fetches ⟨by decide, rfl⟩) row₃ (taken stack₃.symm)
  obtain ⟨top₄, full₄, -⟩ := step_of_return next₄
  obtain ⟨-, stack₄⟩ := List.cons.inj (stack₃.trans full₄)
  have matched : u.Matched 0x200 [.step, .step] := by
    refine ⟨⟨_, next₁⟩, begins.pc, by decide, next₄, ?_, ?_⟩
    · exact (congrArg List.length stack₄.symm).trans shallow.symm
    -- The first of the two returns only gets back to the first call.
    · intro mid early known back
      cases mid with
      | nil => cases next₂.symm.trans known
      | cons a rest =>
        obtain ⟨rfl, early⟩ := List.cons_prefix_cons.1 early
        have short := early.length_le
        rw [List.length_append] at short
        obtain rfl : rest = [] := List.length_eq_zero_iff.1 (by simpa using short)
        have one : 1 = 0 := (congrArg List.length stack₃).trans (back.trans shallow)
        cases one
  obtain ⟨pc, -⟩ := (calls_match {} .off (.cycle [])
    [.load nested.bytes, .step, .step, .step, .step]).2.2.2 [.load nested.bytes] [.step, .step]
    u 0x200 List.prefix_rfl boots matched
  exact ⟨u, matched, stack₂, pc⟩

end Session

end Chip8
