import Chip8.Proofs.Restart
import Chip8.Proofs.Stopping
/-!
# Loading

A load is done as a whole or not at all. Bytes that are too many for a program leave a session as it
is, so that a history is the same without the loads of such bytes (`Session.history_filter`). All
others are accepted whatever the session is doing: they take the place of the program, in memory
(`Memory.slice_load`) and for the resets to come (`Session.reset_after_boot`). The main result is
`load_all_or_nothing`.
-/

namespace Chip8

namespace Memory

/-- Lengths within memory are not cut. -/
lemma bound_of_le {n : Nat} (inside : n ≤ size) : bound n = n := by
  rw [bound, if_neg (Int.not_lt.2 (Int.natCast_nonneg n)), Int.toNat_natCast,
    Nat.min_eq_left inside]

/-- A slice has as many bytes as there are addresses in it. -/
lemma length_slice (m : Memory) {first last : Nat} (order : first ≤ last) (inside : last ≤ size) :
    (m.slice first last).length = last - first := by
  rw [slice, bound_of_le inside, bound_of_le (Nat.le_trans order inside), List.length_drop,
    List.length_take, Vector.length_toList, Nat.min_eq_left inside]

/-- A range of addresses, byte by byte. -/
lemma getElem?_slice (m : Memory) {first last k : Nat} (within : first + k < last)
    (inside : last ≤ size) : (m.slice first last)[k]? = some (m.byteAt (first + k)) := by
  rw [slice, bound_of_le inside, bound_of_le (by omega), List.getElem?_drop,
    List.getElem?_take_of_lt within, Vector.getElem?_toList, byteAt,
    Vector.getElem?_eq_getElem (Nat.lt_of_lt_of_le within inside), Option.getD_some]

/-- From the start of programs on, memory is the program and zeros. -/
lemma slice_load (m : Memory) (rom : Rom) :
    (m.load rom).slice programStart size =
      rom.bytes ++ List.replicate (Rom.maxSize - rom.bytes.length) 0 := by
  have whole : programStart + Rom.maxSize = size := rfl
  have fits := rom.length_le
  apply List.ext_getElem?
  intro k
  by_cases inside : k < Rom.maxSize
  · rw [getElem?_slice _ (by omega) (Nat.le_refl _), byteAt_load, if_neg (by omega),
      Nat.add_sub_cancel_left, List.getD_eq_getElem?_getD]
    by_cases within : k < rom.bytes.length
    · rw [List.getElem?_append_left within, List.getElem?_eq_getElem within, Option.getD_some]
    · rw [List.getElem?_append_right (by omega), List.getElem?_replicate_of_lt (by omega),
        List.getElem?_eq_none (by omega), Option.getD_none]
  · rw [List.getElem?_eq_none, List.getElem?_eq_none]
    · rw [List.length_append, List.length_replicate]
      omega
    · rw [length_slice _ (by omega) (Nat.le_refl _)]
      omega

end Memory

/-- Whether an action loads more bytes than a program may have. -/
def Action.loadsTooMany : Action → Bool
  | .load bytes => Rom.maxSize < bytes.length
  | _ => false

namespace Session

variable {s : Session} {bytes : List UInt8}

/-- What happens when actions are done one after the other: each of them with what it did. -/
def history (s : Session) : List Action → List (Action × Transition Session (Option FrameReport))
  | [] => []
  | a :: rest => (a, s.act a) :: (s.act a).state.history rest

/-- A program that is too large is refused, and the session stays as it is. -/
lemma act_load_tooMany (tooMany : Rom.maxSize < bytes.length) :
    s.act (.load bytes) = ⟨s, .error (.rom (.tooLarge bytes.length)), .none⟩ :=
  act_load_refused (dif_neg (Nat.not_le_of_lt tooMany))

/-- A load that is refused for its size leaves the session as it is. -/
lemma state_act_of_loadsTooMany {a : Action} (tooMany : a.loadsTooMany = true) :
    (s.act a).state = s := by
  cases a with
  | load bytes =>
    have large := of_decide_eq_true tooMany
    have refused := congrArg Transition.result (act_load_tooMany (s := s) large)
    exact state_act_of_error ⟨Action.noConfusion, Action.noConfusion⟩ refused
  | _ => cases tooMany

/-- Loads of too many bytes make no difference for what is done before and after them. -/
lemma history_filter (s : Session) (acts : List Action) :
    s.history (acts.filter (!·.loadsTooMany)) =
      (s.history acts).filter (!·.1.loadsTooMany) ∧
    s.after (acts.filter (!·.loadsTooMany)) = s.after acts := by
  induction acts generalizing s with
  | nil => exact ⟨rfl, rfl⟩
  | cons a rest ih =>
    obtain ⟨same, still⟩ := ih (s.act a).state
    rw [history, after, List.filter_cons, List.filter_cons]
    cases tooMany : a.loadsTooMany with
    | true =>
      rw [state_act_of_loadsTooMany tooMany] at same still ⊢
      exact ⟨same, still⟩
    | false => exact ⟨congrArg _ same, still⟩

/-- Resets restore the program until another one is loaded. -/
lemma reset_after_boot (s : Session) (rom : Rom) {acts : List Action}
    (keep : ∀ a ∈ acts, a.accepted? = none) :
    ((s.boot rom).after acts).reset.machine = (s.boot rom).machine := by
  have none : acts.filterMap Action.accepted? = [] := List.filterMap_eq_nil_iff.2 keep
  have program := rom_after (s.boot rom) acts
  rw [none, List.getLast?_nil, Option.getD_none] at program
  have kept : ((s.boot rom).after acts).rom = rom := Rom.eq_of_bytes program
  rw [reset, kept]
  rfl

/-- Loads of more than 3584 bytes are refused. They leave everything as it was, whatever else is
done. Loads of at most 3584 bytes are accepted in every session. These bytes are then what a new
engine finds in memory from `$200` on, with zeros behind them, as does the engine after any reset
until another program is accepted. -/
theorem load_all_or_nothing (s : Session) :
    (∀ bytes : List UInt8, 3584 < bytes.length →
      (RomError.tooLarge bytes.length).kind = "rom-too-large" ∧
      s.act (.load bytes) = ⟨s, .error (.rom (.tooLarge bytes.length)), .none⟩) ∧
    (∀ acts : List Action,
      s.history (acts.filter (!·.loadsTooMany)) =
        (s.history acts).filter (!·.1.loadsTooMany) ∧
      s.after (acts.filter (!·.loadsTooMany)) = s.after acts) ∧
    ∀ bytes : List UInt8, bytes.length ≤ 3584 → ∃ s',
      s.act (.load bytes) = ⟨s', .ok none, .none⟩ ∧
      s'.engine = freshEngine s.settings s.tracing s'.machine.memory s.engine.random ∧
      s'.machine.memory.slice 0x200 0x1000 = bytes ++ List.replicate (3584 - bytes.length) 0 ∧
      ∀ acts : List Action, (∀ a ∈ acts, a.accepted? = none) →
        (s'.after acts).reset.machine = s'.machine := by
  refine ⟨fun bytes tooMany => ⟨rfl, act_load_tooMany tooMany⟩, history_filter s, ?_⟩
  intro bytes fits
  have loaded : Rom.ofBytes bytes = .ok ⟨bytes, fits⟩ := dif_pos fits
  exact ⟨s.boot ⟨bytes, fits⟩, act_load loaded, rfl, Memory.slice_load _ ⟨bytes, fits⟩,
    fun acts keep => reset_after_boot s ⟨bytes, fits⟩ keep⟩

/-- A session that has stopped. A load that is refused leaves it like that, and a reset brings its
program back; another program ends the stop. -/
theorem load_all_or_nothing_stopped :
    ∃ (s : Session) (tooMany : List UInt8) (f : Fault), s.engine.fault = some f ∧
      s.act (.load tooMany) = ⟨s, .error (.rom (.tooLarge 3585)), .none⟩ ∧
      (s.after [.load tooMany, .reset]).rom.bytes = [0x00, 0xEE] ∧
      ∃ s', s.act (.load [0x12, 0x00]) = ⟨s', .ok none, .none⟩ ∧ s'.engine.fault = none ∧
        s'.machine.memory.slice 0x200 0x1000 = [0x12, 0x00] ++ List.replicate 3582 0 ∧
        (s'.after [.load tooMany]).reset.machine = s'.machine := by
  obtain ⟨tooMany, length⟩ : ∃ bytes : List UInt8, bytes.length = 3585 :=
    ⟨List.replicate 3585 0, List.length_replicate⟩
  obtain ⟨s, begins, empty, program⟩ : ∃ s : Session, s.Begins ⟨[0x00, 0xEE], by decide⟩ ∧
      s.machine.stack = [] ∧ s.rom.bytes = [0x00, 0xEE] :=
    ⟨_, begins_boot (.start {} .off (.cycle [])) _, rfl, rfl⟩
  have fetches : s.machine.view.Fetches 0x200 0x00EE := begins.fetches ⟨by decide, rfl⟩
  have failed := Engine.step_of_underflow begins.running begins.awake fetches empty
  have stopped := (Engine.step_of_thrown failed).1
  obtain ⟨refused, erased, accepted⟩ := load_all_or_nothing (s.withEngine s.engine.step.state)
  have beyond : (Action.load tooMany).loadsTooMany = true :=
    decide_eq_true (by rw [length]; decide)
  obtain ⟨s', loaded, fresh, memory, again⟩ := accepted [0x12, 0x00] (by decide)
  have zeros : 3584 - ([0x12, 0x00] : List UInt8).length = 3582 := rfl
  rw [zeros] at memory
  refine ⟨s.withEngine s.engine.step.state, tooMany, _, stopped, ?_, ?_, s', loaded, ?_, memory, ?_⟩
  · rw [← length]
    exact (refused tooMany (by rw [length]; decide)).2
  · have without := (erased [.load tooMany, .reset]).2
    rw [List.filter_cons, beyond] at without
    rw [← without, rom_after]
    exact program
  · rw [fresh]
    rfl
  · refine again _ fun a member => ?_
    rw [List.mem_singleton.1 member, Action.accepted?, if_neg (by rw [length]; decide)]

end Session

end Chip8
