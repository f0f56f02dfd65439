import Chip8.Proofs.Reachable
import Chip8.Proofs.Table
/-!
# Following a program

An engine follows a program as long as the program is in memory as it was loaded
(`Engine.Follows`): the words that it fetches are those of the program (`Follows.fetches`), and a
step has the effect of the row of its word and goes on wherever that says (`Follows.step`). A
session that has just loaded a program begins with its first word (`Session.Begins`), from which on
it is followed (`Begins.follows`).
-/

namespace Chip8

/-- The word at an offset of a program. -/
structure Rom.Has (rom : Rom) (k : Nat) (word : UInt16) : Prop where
  inside : 0x200 + k + 1 < 4096
  bytes : word.toNat = 0x100 * (rom.bytes.getD k 0).toNat + (rom.bytes.getD (k + 1) 0).toNat

namespace Engine

variable {e : Engine} {rom : Rom} {k : Nat}

/-- An engine that neither stopped nor waits, at an offset of a program that is still in memory as
it was loaded. -/
structure Follows (e : Engine) (rom : Rom) (k : Nat) : Prop where
  running : e.fault = none
  awake : e.machine.keyWait = none
  pc : e.machine.view.pc = .address (0x200 + k : Nat)
  memory (j : Nat) : e.machine.view.memory (0x200 + j) = (rom.bytes.getD j 0).toNat

/-- An engine that follows a program fetches its words. -/
lemma Follows.fetches (h : e.Follows rom k) {word : UInt16} (has : rom.Has k word) :
    e.machine.view.Fetches (0x200 + k) word := by
  refine ⟨h.pc, has.inside, ?_⟩
  rw [h.memory k, Nat.add_assoc, h.memory (k + 1)]
  exact has.bytes

/-- A tick does not lead away from a program. -/
lemma Follows.ticked (h : e.Follows rom k) : e.ticked.Follows rom k :=
  ⟨h.running, h.awake, h.pc, h.memory⟩

/-- What the row of a word at an address makes of a machine. -/
def behind (e : Engine) (a : Nat) (word : UInt16) : View :=
  e.machine.view.effect e.dialect a (e.random.bytes e.random.drawn).toNat (.decode word)

/-- A step executes the word of the program, and goes on with the program where the row of the word
says so, unless it waits or touches memory. -/
lemma Follows.step (h : e.Follows rom k) (word : UInt16) (next : Nat) (has : rom.Has k word)
    (clear : (Instruction.decode word).obstacle e.policy e.machine = none)
    (goes : (e.behind (0x200 + k) word).pc = .address (0x200 + next : Nat) ∧
      (e.behind (0x200 + k) word).target = e.machine.view.target ∧
      (e.behind (0x200 + k) word).memory = e.machine.view.memory) :
    e.step.result = .ok () ∧ e.step.state.Follows rom next ∧
      e.step.state.machine.view = e.behind (0x200 + k) word := by
  obtain ⟨done, running, view⟩ := step_of_describes h.running h.awake (h.fetches has)
    (Instruction.describes_decode word) clear
  obtain ⟨pc, target, memory⟩ := goes
  refine ⟨done, ⟨running, ?_, ?_, ?_⟩, view⟩
  · exact (congrArg View.target view).trans (target.trans h.awake)
  · exact (congrArg View.pc view).trans pc
  · intro j
    exact (congrFun ((congrArg View.memory view).trans memory) _).trans (h.memory j)

end Engine

namespace Session

variable {s : Session}

/-- A reachable session that has just loaded a program. -/
structure Begins (s : Session) (rom : Rom) : Prop where
  reachable : s.Reachable
  running : s.engine.fault = none
  awake : s.machine.keyWait = none
  pc : s.machine.pc = .address 0x200
  cleared (x : Register) : s.machine.get x = 0
  memory (k : Nat) : s.machine.view.memory (0x200 + k) = (rom.bytes.getD k 0).toNat

/-- A program begins when it has been booted. -/
lemma begins_boot (h : s.Reachable) (rom : Rom) : (s.boot rom).Begins rom where
  reachable := h.boot rom
  running := rfl
  awake := rfl
  pc := rfl
  cleared x := by
    change (Vector.replicate 16 0)[x.val] = 0
    rw [Vector.getElem_replicate]
  memory k := by
    change ((Memory.powerOn.load rom).byteAt (Memory.programStart + k)).toNat = _
    rw [Memory.byteAt_load, if_neg (by omega), Nat.add_sub_cancel_left]

/-- Every program can be loaded. -/
lemma exists_begins (rom : Rom) : ∃ s : Session, s.Begins rom :=
  ⟨_, begins_boot (.start {} .off (.cycle [])) rom⟩

/-- A program that has just been loaded is followed from its first word on. -/
lemma Begins.follows {rom : Rom} (begins : s.Begins rom) : s.engine.Follows rom 0 :=
  ⟨begins.running, begins.awake, begins.pc, begins.memory⟩

/-- A program that has just been loaded is about to execute its first word. -/
lemma Begins.fetches {rom : Rom} {word : UInt16} (begins : s.Begins rom) (has : rom.Has 0 word) :
    s.machine.view.Fetches 0x200 word := begins.follows.fetches has

end Session

end Chip8
