import Chip8.Sound.SquareWave
import Mathlib.Tactic.Lemma
/-!
# The tone in blocks

An active block takes up the tone where the last one has left it (`fill_active`), and a silent block
leaves the tone as it is. So active blocks yield together what a single block of their length yields
(`samples_add`), whatever silent blocks are between them. A reset takes the tone back to its
beginning, however far it has come (`reset_later`), so that the samples between two resets are those
of a new tone. `blocks_uncut` says all this of any sequence of calls.
-/

namespace Chip8.SquareWave

variable {w : SquareWave}

/-- The tone some samples later. -/
def later (w : SquareWave) : Nat → SquareWave
  | 0 => w
  | n + 1 => w.advance.later n

/-- The next samples of a tone. -/
def samples (w : SquareWave) : Nat → List Sample
  | 0 => []
  | n + 1 => w.sample :: w.advance.samples n

/-- A wave can be played on in two parts. -/
lemma later_add (w : SquareWave) (m n : Nat) : w.later (m + n) = (w.later m).later n := by
  induction m generalizing w with
  | zero => rw [Nat.zero_add, later]
  | succ m ih => rw [Nat.succ_add, later, later, ih]

/-- Cutting a block in two yields the same samples. -/
lemma samples_add (w : SquareWave) (m n : Nat) :
    w.samples (m + n) = w.samples m ++ (w.later m).samples n := by
  induction m generalizing w with
  | zero => rw [Nat.zero_add, samples, later, List.nil_append]
  | succ m ih => rw [Nat.succ_add, samples, samples, later, ih, List.cons_append]

/-- As many samples as are asked for. -/
lemma length_samples (w : SquareWave) (n : Nat) : (w.samples n).length = n := by
  induction n generalizing w with
  | zero => rfl
  | succ n ih => rw [samples, List.length_cons, ih]

/-- Nothing but the phase of a tone goes on. -/
lemma later_eq (w : SquareWave) (n : Nat) : w.later n = { w with phase := (w.later n).phase } := by
  induction n generalizing w with
  | zero => rfl
  | succ n ih =>
    rw [later, ih]
    rfl

/-- The level of a wave does not change while it is played. -/
lemma level_later (w : SquareWave) (n : Nat) : (w.later n).level = w.level := by
  rw [later_eq]

/-- A wave starts anew in the same way wherever it was. -/
lemma reset_later (w : SquareWave) (n : Nat) : (w.later n).reset = w.reset := by
  rw [reset, later_eq]
  rfl

/-- A sample of a tone is its level, or that turned over. -/
lemma mem_samples {n : Nat} {sample : Sample} (member : sample ∈ w.samples n) :
    sample = w.level ∨ sample = w.level.negate := by
  induction n generalizing w with
  | zero => cases member
  | succ n ih =>
    obtain rfl | others := List.mem_cons.1 member
    · rw [SquareWave.sample]
      split
      · exact .inl rfl
      · exact .inr rfl
    · exact ih (w := w.advance) others

/-- What filling appends, and the wave behind it. -/
lemma appendTo_eq (w : SquareWave) (sound : Array Sample) (n : Nat) :
    w.appendTo sound n = (sound ++ (w.samples n).toArray, w.later n) := by
  induction n generalizing w sound with
  | zero => rw [appendTo, samples, later, Array.append_empty]
  | succ n ih =>
    rw [appendTo, ih, samples, later]
    congr 1
    apply Array.toList_inj.1
    simp only [Array.toList_append, Array.toList_push, List.append_assoc, List.singleton_append]

/-- An active block yields the next samples of the tone, and takes it on by as many. -/
lemma fill_active (w : SquareWave) (sound : Array Sample) (n : Nat) :
    w.fill sound n true = (sound ++ (w.samples n).toArray, w.later n) :=
  appendTo_eq w sound n

/-- What is asked of a tone. -/
inductive Call where
  | fill (n : Nat) (active : Bool)
  | reset
deriving DecidableEq

namespace Call

/-- Whether a call starts the wave anew. -/
def isReset : Call → Bool
  | reset => true
  | fill _ _ => false

/-- Whether a call asks for silence. -/
def isSilent : Call → Bool
  | fill _ active => !active
  | reset => false

/-- How many samples of the tone are asked for. -/
def length : Call → Nat
  | fill n true => n
  | fill _ false | reset => 0

end Call

/-- The block that a call yields, and the tone after it. A reset yields no samples. -/
def answer (w : SquareWave) : Call → Array Sample × SquareWave
  | .fill n active => w.fill #[] n active
  | .reset => (#[], w.reset)

/-- A call with the block that it yielded. -/
structure Block where
  call : Call
  samples : Array Sample

/-- The blocks that calls yield one after the other. -/
def blocks (w : SquareWave) : List Call → List Block
  | [] => []
  | c :: rest => ⟨c, (w.answer c).1⟩ :: (w.answer c).2.blocks rest

/-- The blocks between two resets, those up to the first and those behind the last included. -/
def stretches (blocks : List Block) : List (List Block) := blocks.splitOnP (·.call.isReset)

/-- What is heard of the tone in some blocks. -/
def heard (blocks : List Block) : List Sample :=
  (blocks.filter (!·.call.isSilent)).flatMap (·.samples.toList)

/-- How many samples of the tone are asked for with some blocks. -/
def length : List Block → Nat
  | [] => 0
  | block :: rest => block.call.length + length rest

/-- Silence leaves the wave where it is. -/
lemma answer_silent {c : Call} (silent : c.isSilent = true) : (w.answer c).2 = w := by
  cases c with
  | fill n active =>
    cases active with
    | true => cases silent
    | false => rfl
  | reset => cases silent

/-- What comes before the next reset goes on with the tone, and what comes behind it is the tone
from its beginning on. -/
lemma stretches_later (beginning : w.reset = w) (k : Nat) (calls : List Call) :
    ∃ first rest, stretches ((w.later k).blocks calls) = first :: rest ∧
      heard first = (w.later k).samples (length first) ∧
      ∀ stretch ∈ rest, heard stretch = w.samples (length stretch) := by
  induction calls generalizing k with
  | nil => exact ⟨[], [], rfl, rfl, fun _ => nofun⟩
  | cons c calls ih =>
    cases c with
    | fill n active =>
      cases active with
      | true =>
        obtain ⟨first, rest, split, head, tail⟩ := ih (k + n)
        have block : (w.later k).answer (.fill n true) =
            (((w.later k).samples n).toArray, w.later (k + n)) := by
          rw [answer, fill_active, later_add, Array.empty_append]
        refine ⟨⟨.fill n true, ((w.later k).samples n).toArray⟩ :: first, rest, ?_, ?_, tail⟩
        · rw [blocks, block, stretches, List.splitOnP_cons_eq_if_modifyHead]
          exact congrArg (List.modifyHead _) split
        · calc
            _ = (w.later k).samples n ++ heard first := rfl
            _ = (w.later k).samples n ++ (w.later (k + n)).samples (length first) := by rw [head]
            _ = (w.later k).samples (n + length first) := by rw [later_add, ← samples_add]
      | false =>
        obtain ⟨first, rest, split, head, tail⟩ := ih k
        refine ⟨⟨.fill n false, #[] ++ Array.replicate n .silence⟩ :: first, rest, ?_, ?_, tail⟩
        · rw [blocks, stretches, List.splitOnP_cons_eq_if_modifyHead]
          exact congrArg (List.modifyHead _) split
        · refine head.trans (congrArg _ ?_)
          exact (Nat.zero_add _).symm
    | reset =>
      obtain ⟨first, rest, split, head, tail⟩ := ih 0
      have back : (w.later k).answer .reset = (#[], w.later 0) := by
        rw [answer, reset_later, beginning, later]
      refine ⟨[], first :: rest, ?_, rfl, ?_⟩
      · rw [blocks, back, stretches, List.splitOnP_cons_eq_if_modifyHead]
        exact congrArg (List.cons []) split
      · exact List.forall_mem_cons.2 ⟨head, tail⟩

/-- A block of silence has as many silent samples as were asked for. -/
lemma samples_of_silent {calls : List Call} {n : Nat} {block : Array Sample}
    (member : ⟨.fill n false, block⟩ ∈ w.blocks calls) : block = Array.replicate n .silence := by
  induction calls generalizing w with
  | nil => cases member
  | cons c rest ih =>
    obtain first | later := List.mem_cons.1 member
    · cases first
      exact Array.empty_append
    · exact ih later

/-- Without the silent calls all others yield the same. -/
lemma blocks_filter (w : SquareWave) (calls : List Call) :
    w.blocks (calls.filter (!·.isSilent)) = (w.blocks calls).filter (!·.call.isSilent) := by
  induction calls generalizing w with
  | nil => rfl
  | cons c rest ih =>
    cases silent : c.isSilent with
    | true =>
      rw [List.filter_cons_of_neg (by rw [silent]; exact Bool.false_ne_true), blocks,
        List.filter_cons_of_neg (by rw [silent]; exact Bool.false_ne_true), answer_silent silent,
        ih]
    | false =>
      rw [List.filter_cons_of_pos (by rw [silent]; rfl), blocks, blocks,
        List.filter_cons_of_pos (by rw [silent]; rfl), ih]

/-- A tone and any calls. What is heard of the tone between two resets is what a single block of
that length yields at the beginning of the tone. A silent block is all silence, and without the
silent blocks all others are the same. -/
theorem blocks_uncut {rate : Float} (positive : 0.0 < rate) (frequency volume : Float) :
    ∃ w, start rate frequency volume = .ok w ∧ ∀ calls,
      (∀ stretch ∈ stretches (w.blocks calls),
        heard stretch = (w.fill #[] (length stretch) true).1.toList) ∧
      (∀ n block, ⟨.fill n false, block⟩ ∈ w.blocks calls → block = Array.replicate n .silence) ∧
      w.blocks (calls.filter (!·.isSilent)) = (w.blocks calls).filter (!·.call.isSilent) := by
  refine ⟨_, if_pos positive, ?_⟩
  intro calls
  refine ⟨?_, fun n block => samples_of_silent, blocks_filter _ calls⟩
  intro stretch member
  obtain ⟨first, rest, split, head, tail⟩ := stretches_later (w := ⟨rate, _, 0.0, _⟩) rfl 0 calls
  rw [fill_active, Array.empty_append]
  rw [later] at split head
  rw [split] at member
  obtain rfl | behind := List.mem_cons.1 member
  · exact head
  · exact tail stretch behind

/-- Eight samples make a period, cut by a silent block, and then the tone begins anew. -/
theorem blocks_uncut_cut :
    ∃ w first second, (0.0 : Float) < 8000.0 ∧ start 8000.0 1000.0 0.5 = .ok w ∧
      stretches (w.blocks [.fill 5 true, .fill 2 false, .fill 3 true, .reset, .fill 1 true]) =
        [first, second] ∧
      heard first = (w.fill #[] 8 true).1.toList ∧
      heard first = List.replicate 5 ⟨0x3F000000⟩ ++ List.replicate 3 ⟨0xBF000000⟩ ∧
      heard second = [⟨0x3F000000⟩] := by
  have positive : (0.0 : Float) < 8000.0 := by decide +kernel
  obtain ⟨w, started, calls⟩ := blocks_uncut positive 1000.0 0.5
  obtain ⟨uncut, -, -⟩ :=
    calls [.fill 5 true, .fill 2 false, .fill 3 true, .reset, .fill 1 true]
  have period : (w.fill #[] 8 true).1.toList =
      List.replicate 5 ⟨0x3F000000⟩ ++ List.replicate 3 ⟨0xBF000000⟩ := by
    obtain rfl : _ = w := Except.ok.inj ((if_pos positive).symm.trans started)
    decide +kernel
  have first := uncut _ (.head _)
  have second := uncut _ (.tail _ (.head _))
  refine ⟨w, _, _, positive, started, rfl, first, first.trans period, second.trans ?_⟩
  obtain rfl : _ = w := Except.ok.inj ((if_pos positive).symm.trans started)
  decide +kernel

end Chip8.SquareWave
