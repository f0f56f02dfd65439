import Chip8.Proofs.Completions
import Chip8.Proofs.Restart
/-!
# Where random bytes enter

One instruction draws a random byte, and it keeps of that byte what its mask lets through. So the
bytes drawn in a run are as many as the masks of the instructions completed
(`Session.random_after`), and runs whose bytes agree under these masks have the same states
(`Session.accompanies_drawing`). `random_enters_masked` puts this together.
-/

namespace Chip8

namespace RandomSource

variable {r : RandomSource} {n k : Nat}

/-- The source after some more bytes were drawn from it. -/
def advance (r : RandomSource) (n : Nat) : RandomSource := { r with drawn := r.drawn + n }

/-- A source can be advanced in two parts. -/
lemma advance_advance : (r.advance n).advance k = r.advance (n + k) :=
  congrArg (RandomSource.mk r.bytes) (Nat.add_assoc ..)

/-- A source shows how far it was advanced. -/
lemma advance_inj (same : r.advance n = r.advance k) : n = k :=
  Nat.add_left_cancel (congrArg drawn same)

/-- The next byte of a source that was advanced. -/
lemma next_advance (r : RandomSource) (n : Nat) : (r.advance n).next.1 = r.upcoming n := rfl

end RandomSource

namespace Instruction

variable {ins : Instruction}

/-- The mask that a random byte goes through, if the instruction draws one. -/
def mask? : Instruction → Option UInt8
  | random _ mask => some mask
  | _ => none

/-- An instruction draws a byte exactly if it has a mask. -/
lemma draws_eq_length (ins : Instruction) : ins.draws = ins.mask?.toList.length := by
  cases ins <;> rfl

/-- An instruction that something can stand in the way of draws nothing. -/
lemma mask?_of_obstacle {policy : UnknownPolicy} {m : Machine} {cause : FaultCause}
    (blocked : ins.obstacle policy m = some cause) : ins.mask? = none := by
  cases ins with
  | random => cases blocked
  | _ => rfl

/-- An instruction depends on nothing of the random source but the masked byte, if it draws one. -/
lemma execute_masked (ins : Instruction) (r r' : RandomSource)
    (same : ∀ mask ∈ ins.mask?, r'.next.1 &&& mask = r.next.1 &&& mask) (d : Dialect)
    (policy : UnknownPolicy) (pc : Place) (m : Machine) :
    (ins.execute d policy pc m r').machine = (ins.execute d policy pc m r).machine ∧
      (ins.execute d policy pc m r').abort = (ins.execute d policy pc m r).abort ∧
      (ins.execute d policy pc m r).random = r.advance ins.draws ∧
      (ins.execute d policy pc m r').random = r'.advance ins.draws := by
  cases ins with
  | random x mask => exact ⟨congrArg (m.set x) (same mask rfl), rfl, rfl, rfl⟩
  | ret | call | draw | storeDecimal | store | load =>
    simp only [execute]
    split <;> exact ⟨rfl, rfl, rfl, rfl⟩
  | unknown word => cases policy <;> exact ⟨rfl, rfl, rfl, rfl⟩
  | _ => exact ⟨rfl, rfl, rfl, rfl⟩

end Instruction

namespace Engine

variable {b b' : RandomSource} {e e' : Engine}

/-- Engines that differ at most in their random sources, of which they have drawn as many bytes
since the sources were `b` and `b'`. -/
def Drawing (b b' : RandomSource) (e e' : Engine) : Prop :=
  ∃ n, e.random = b.advance n ∧ e' = e.withRandom (b'.advance n)

/-- Running a word comes to the same if the byte that it draws is the same under the mask. -/
lemma run_drawing (drawing : Drawing b b' e e') {word : UInt16}
    (same : ∀ mask ∈ (Instruction.decode word).mask?,
      e'.random.next.1 &&& mask = e.random.next.1 &&& mask) :
    Transition.Alike (Drawing b b') (e.run word) (e'.run word) := by
  obtain ⟨n, random, rfl⟩ := drawing
  obtain ⟨machine, abort, drawn, drawn'⟩ :=
    (Instruction.decode word).execute_masked e.random (b'.advance n) same e.dialect e.policy
      e.machine.pc e.machine.skip
  replace drawn := drawn.trans
    ((congrArg (RandomSource.advance · _) random).trans RandomSource.advance_advance)
  rw [RandomSource.advance_advance] at drawn'
  simp only [run, withRandom]
  generalize Instruction.execute _ _ _ _ (b'.advance n) _ = o' at machine abort drawn' ⊢
  generalize Instruction.execute _ _ _ _ e.random _ = o at machine abort drawn ⊢
  obtain ⟨m, r, ending⟩ := o
  obtain ⟨m', r', ending'⟩ := o'
  cases machine
  cases abort
  cases drawn
  cases drawn'
  cases ending with
  | none => exact .intro ⟨_, rfl, rfl⟩
  | some abort => cases abort <;> exact .intro ⟨_, rfl, rfl⟩

/-- Engines stay alike over a step if the byte that it draws, if any, is the same under the mask. -/
lemma step_drawing (drawing : Drawing b b' e e')
    (same : ∀ ins ∈ e.completing?, ∀ mask ∈ ins.mask?,
      e'.random.next.1 &&& mask = e.random.next.1 &&& mask) :
    Transition.Alike (Drawing b b') e.step e'.step := by
  obtain ⟨n, random, rfl⟩ := id drawing
  refine step_alike drawing rfl rfl (fun m f k => ⟨n, random, rfl⟩) rfl ?_
  intro word running awake fetched
  refine run_drawing drawing ?_
  cases clear : (Instruction.decode word).obstacle e.policy e.machine with
  | none => exact same _ (completing?_of_fetched running awake fetched clear)
  | some cause =>
    rw [Instruction.mask?_of_obstacle clear]
    exact nofun

/-- A step draws a byte for the mask of the instruction that it completes, and else none. -/
lemma random_step (e : Engine) : e.step.state.random =
    e.random.advance (e.completing?.toList.filterMap Instruction.mask?).length := by
  cases known : e.completing? with
  | none => exact (rest_of_completing_none known).1
  | some ins =>
    obtain ⟨word, -, rfl, clear, completed⟩ := state_of_completing known
    have clear' := (Instruction.obstacle_skip _ _ _).trans clear
    rw [completed]
    refine (Instruction.random_execute clear').trans ?_
    rw [Instruction.draws_eq_length, Option.toList_some, List.filterMap_cons]
    cases (Instruction.decode word).mask? <;> rfl

/-- A random byte comes into a register through its mask. -/
lemma get_step_of_random {x : Register} {mask : UInt8}
    (known : e.completing? = some (.random x mask)) :
    e.step.state.machine.get x = e.random.next.1 &&& mask := by
  obtain ⟨word, -, row, -, completed⟩ := state_of_completing known
  rw [completed, Engine.completed, outcome, row]
  exact (Machine.get_set _ x x _).trans (if_pos rfl)

end Engine

namespace Session

variable {b b' : RandomSource} {s s' : Session} {a : Action} {acts : List Action}

/-- The masks that random bytes go through in the course of some actions, one after the other. -/
def masks (s : Session) (acts : List Action) : List UInt8 :=
  (s.completions acts).filterMap Instruction.mask?

/-- What an action that is no frame draws. -/
lemma random_act (whole : a ≠ .frame) : (s.act a).state.engine.random =
    s.engine.random.advance ((s.completed? a).toList.filterMap Instruction.mask?).length := by
  by_cases idle : a = .step
  · rw [idle]
    exact s.engine.random_step
  · rw [completed?_of_ne_step idle]
    exact act_keeps (P := fun t => t.engine.random = s.engine.random) rfl whole idle (random_boot s)
      (fun _ => rfl) (fun _ => rfl) fun _ => rfl

/-- As many bytes are drawn as there are masks. -/
lemma random_after (s : Session) (whole : ∀ a ∈ acts, a ≠ .frame) :
    (s.after acts).engine.random = s.engine.random.advance (s.masks acts).length := by
  induction acts generalizing s with
  | nil => rfl
  | cons a rest ih =>
    obtain ⟨first, others⟩ := List.forall_mem_cons.1 whole
    rw [after, ih _ others, random_act first, RandomSource.advance_advance, masks, masks,
      completions, List.filterMap_append, List.length_append]

/-- Sessions that differ at most in their random sources, of which they have drawn as many bytes
since the sources were `b` and `b'`, and those to come agree under the masks of the instructions to
come. -/
def Drawing (b b' : RandomSource) (later : List Instruction) (s s' : Session) : Prop :=
  ∃ n, s.engine.random = b.advance n ∧ s' = s.withRandom (b'.advance n) ∧
    ∀ k mask, (later.filterMap Instruction.mask?)[k]? = some mask →
      b'.upcoming (n + k) &&& mask = b.upcoming (n + k) &&& mask

/-- A step of the session comes to the same if the byte that it draws is the same under the mask. -/
lemma step_drawing (b' : RandomSource) {n : Nat} (random : s.engine.random = b.advance n)
    (same : ∀ ins ∈ s.engine.completing?, ∀ mask ∈ ins.mask?,
      b'.upcoming n &&& mask = b.upcoming n &&& mask) :
    ∃ k, s.step.state.engine.random = b.advance k ∧
      (s.withRandom (b'.advance n)).step.state = s.step.state.withRandom (b'.advance k) := by
  have drawing : Engine.Drawing b b' s.engine (s.engine.withRandom (b'.advance n)) :=
    ⟨n, random, rfl⟩
  have alike := Engine.step_drawing drawing (by rw [random]; exact same)
  obtain ⟨k, later, equal⟩ := alike.state
  exact ⟨k, later, congrArg s.withEngine equal⟩

/-- Sessions with two sources go along until they draw bytes that differ under the mask. -/
lemma accompanies_drawing (b b' : RandomSource) : Accompanies (Drawing b b') where
  budget := by rintro s - later ⟨n, -, rfl, -⟩; rfl
  fault := by rintro s - later ⟨n, -, rfl, -⟩; rfl
  act := by
    rintro s - a later whole ⟨n, random, rfl, agree⟩
    by_cases idle : a = .step
    · subst idle
      obtain ⟨k, drawn, equal⟩ := step_drawing b' random (by
        intro ins known mask member
        refine agree 0 mask ?_
        rw [completed?, Option.mem_def.1 known, List.filterMap_append, Option.toList_some,
          List.filterMap_cons, Option.mem_def.1 member]
        rfl)
      have count := random_act (s := s) whole
      rw [random, RandomSource.advance_advance] at count
      cases RandomSource.advance_inj (drawn.symm.trans count)
      refine ⟨_, drawn, equal, ?_⟩
      intro k mask member
      rw [Nat.add_assoc]
      refine agree _ mask ?_
      rw [List.filterMap_append, List.getElem?_append_right (Nat.le_add_right _ _),
        Nat.add_sub_cancel_left]
      exact member
    · rw [completed?_of_ne_step idle] at agree
      exact act_alike ⟨n, random, rfl, agree⟩ whole idle rfl rfl
        (fun rom => ⟨n, (random_boot s rom).trans random, boot_withRandom s _ rom, agree⟩)
        (fun _ => ⟨n, random, rfl, agree⟩) (fun _ => ⟨n, random, rfl, agree⟩)
        fun _ => ⟨n, random, rfl, agree⟩

/-- Two runs of any actions, with the same settings and two sources of random bytes. A run draws a
byte for each instruction completed that has a mask, and no other; that instruction leaves what its
mask lets through of the byte, and so no bit outside the mask. As long as the two sources agree
under each of the masks of the one run, the other takes the same course, and the sessions are the
same at any time, but for the random source, of which both have drawn as many bytes. -/
theorem random_enters_masked (settings : Settings) (tracing : Tracing)
    (random random' : RandomSource) (acts : List Action) :
    let s := start settings tracing random
    let s' := start settings tracing random'
    s.after (s.unrolled acts) = s.after acts ∧
      (∀ a ∈ s.unrolled acts, a ≠ .frame) ∧
      (s.Returns acts → ∀ past, past <+: s.unrolled acts → s.Past acts past) ∧
      (∀ past, s.Past acts past →
        (s.after past).engine.random = random.advance (s.masks past).length ∧
        ∀ x mask, (s.after past).engine.completing? = some (.random x mask) →
          (s.after past).step.state.machine.get x =
            random.upcoming (s.masks past).length &&& mask ∧
          (s.after past).step.state.machine.get x &&& ~~~mask = 0) ∧
      (s.Returns acts → (∀ k mask, (s.masks (s.unrolled acts))[k]? = some mask →
          random'.upcoming k &&& mask = random.upcoming k &&& mask) →
        s'.Returns acts ∧ s'.unrolled acts = s.unrolled acts) ∧
      ∀ past, s.Past acts past →
        (∀ k mask, (s.masks past)[k]? = some mask →
          random'.upcoming k &&& mask = random.upcoming k &&& mask) →
        s'.Past acts past ∧
          s'.after past = (s.after past).withRandom (random'.advance (s.masks past).length) := by
  intro s s'
  have within {past : List Action} (early : s.Past acts past) : ∀ a ∈ past, a ≠ .frame :=
    fun a => ne_frame_of_mem_past early
  have along := accompanies_drawing random random'
  have first {past : List Action} (agree : ∀ k mask, (s.masks past)[k]? = some mask →
      random'.upcoming k &&& mask = random.upcoming k &&& mask) :
      Drawing random random' (s.completions past ++ []) s s' := by
    refine ⟨0, rfl, rfl, ?_⟩
    intro k mask
    rw [Nat.zero_add, List.append_nil]
    exact agree k mask
  refine ⟨s.after_unrolled acts, fun a => ne_frame_of_mem_unrolled,
    fun returns past => past_of_prefix returns, ?_, ?_, ?_⟩
  · intro past early
    have drawn : (s.after past).engine.random = random.advance (s.masks past).length :=
      s.random_after (within early)
    refine ⟨drawn, ?_⟩
    intro x mask known
    have got : (s.after past).step.state.machine.get x =
        random.upcoming (s.masks past).length &&& mask := by
      refine (Engine.get_step_of_random known).trans ?_
      rw [drawn, RandomSource.next_advance]
    refine ⟨got, ?_⟩
    rw [got, UInt8.and_assoc, UInt8.and_not_self, UInt8.and_zero]
  · exact fun returns agree => along.unrolled returns (first agree)
  · intro past early agree
    refine ⟨along.past early (first agree), ?_⟩
    obtain ⟨n, drawn, equal, -⟩ := along.after (within early) (first agree)
    have count : (s.after past).engine.random = random.advance (s.masks past).length :=
      s.random_after (within early)
    rw [equal, RandomSource.advance_inj (drawn.symm.trans count)]

/-- Two sources without a byte in common, which a mask makes the same. -/
theorem random_enters_masked_low :
    let random : RandomSource := ⟨fun _ => 0x5A, 0⟩
    let random' : RandomSource := ⟨fun _ => 0xAA, 0⟩
    let acts : List Action := [.load [0xC0, 0x0F], .step]
    ((start {} .off random).after acts).machine.get 0 = 0x0A ∧
      (start {} .off random').after acts =
        ((start {} .off random).after acts).withRandom (random'.advance 1) := by
  intro random random' acts
  obtain ⟨u, begins, loaded⟩ : ∃ u : Session, u.Begins ⟨[0xC0, 0x0F], by decide⟩ ∧
      ((start {} .off random).act (.load [0xC0, 0x0F])).state = u :=
    ⟨_, begins_boot (.start {} .off random) _, congrArg Transition.state (act_load rfl)⟩
  have fetches : u.machine.view.Fetches 0x200 0xC00F := begins.fetches ⟨by decide, rfl⟩
  have known : u.engine.completing? = some (.random 0 0x0F) :=
    Engine.completing?_of_describes begins.running begins.awake fetches
      (Instruction.describes_decode 0xC00F) rfl
  have none_first : (start {} .off random).masks [.load [0xC0, 0x0F]] = [] := rfl
  have one : (start {} .off random).masks acts = [0x0F] := by
    calc
      _ = u.masks [.step] := by rw [masks, completions, loaded]; rfl
      _ = [0x0F] := by rw [masks, completions, completed?, known]; rfl
  have low : (0x5A &&& 0x0F : UInt8) = 0x0A ∧ (0xAA &&& 0x0F : UInt8) = 0x0A := by decide
  have first : (start {} .off random).after [.load [0xC0, 0x0F]] = u := loaded
  have second : (start {} .off random).after acts = u.step.state := by
    rw [after, loaded]
    rfl
  obtain ⟨-, -, early, draws, -, same⟩ := random_enters_masked {} .off random random' acts
  have returns : (start {} .off random).Returns acts :=
    ⟨Action.noConfusion, Action.noConfusion, trivial⟩
  have unrolled : (start {} .off random).unrolled acts = acts := rfl
  refine ⟨?_, ?_⟩
  · have value := (draws [.load [0xC0, 0x0F]]
      (early returns _ (by rw [unrolled]; exact ⟨[.step], rfl⟩))).2 0 0x0F
    rw [first, none_first] at value
    rw [second]
    exact (value known).1.trans low.1
  · obtain ⟨-, last⟩ := same acts (early returns _ (by rw [unrolled])) (by
      intro k mask member
      rw [one] at member
      cases k with
      | zero =>
        cases member
        exact low.2.trans low.1.symm
      | succ k => cases member)
    rw [one] at last
    exact last

end Session

end Chip8
