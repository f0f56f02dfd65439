import Chip8.Loop
import Chip8.Machine.Execute
import Chip8.Trace
/-!
# The engine

Fetch, decode and execute. A step of the engine runs one instruction, or asks a pending wait for
its key, or does nothing once the engine has stopped. A fault stops the engine for good, with the
program counter left on the instruction at fault. The instruction count grows with every
instruction that was completed, the end of a wait included. It is told and compared with the trace
window, but bounds no loop, so it is kept as an exact number, where a double is one up to `2 ^ 53`.
-/

namespace Chip8

/-- A machine with what drives it. -/
structure Engine where
  machine : Machine
  dialect : Dialect
  policy : UnknownPolicy
  tracing : Tracing
  random : RandomSource
  /-- The fault that stopped the engine. -/
  fault : Option Fault
  /-- How many instructions were completed. -/
  executed : Nat
  /-- Whether a hook is called with every instruction. -/
  hooked : Bool

/-- A change of state with its result or error, and what could be seen of it. -/
structure Transition (σ α : Type) where
  state : σ
  result : Except Error α
  observed : Observed

namespace Engine

/-- An engine that has not run yet. -/
def start (machine : Machine) (dialect : Dialect) (policy : UnknownPolicy) (tracing : Tracing)
    (random : RandomSource) : Engine :=
  ⟨machine, dialect, policy, tracing, random, none, 0, false⟩

/-- Whether an instruction has stopped the engine. -/
def halted (e : Engine) : Bool := e.fault.isSome

/-- The engine with another machine. -/
def withMachine (e : Engine) (machine : Machine) : Engine := { e with machine := machine }

/-- Stops the engine with the program counter where it was. -/
def halt (e : Engine) (machine : Machine) (fault : Fault) : Engine :=
  { e with machine := { machine with pc := fault.pc }, fault := some fault }

/-- Asks a pending wait for its key. With a key, the register receives it and the program counter
passes the waiting instruction. -/
def poll (e : Engine) (target : Register) : Engine :=
  match e.machine.takeKey with
  | (none, _) => e
  | (some key, m) =>
    { e with
      machine := (m.set target (UInt8.ofNat key.val)).skip
      executed := e.executed + 1 }

/-- The line that is printed for an unknown word that is passed over. -/
def skippedLine (pc : Place) (opcode : UInt16) : String :=
  "[cpu] unknown opcode $" ++ Text.hex 4 opcode.toNat ++ " at PC=$" ++ pc.hex 4 ++ " skipped"

/-- What can be seen of an instruction that is about to be executed. The program counter has passed
it by then. -/
def observe (e : Engine) (pc : Place) (opcode : UInt16) (ins : Instruction) : Observed :=
  let s := e.machine.skip.snapshot
  let line := if e.tracing.shows e.executed then
      #[traceLine pc.number (.finite opcode.toNat) ins.mnemonic ins.operand s] else #[]
  let skipped := match ins, e.policy with
    | .unknown _, .lenient => if e.tracing.enabled then #[skippedLine pc opcode] else #[]
    | _, _ => #[]
  ⟨line ++ skipped, if e.hooked then #[⟨pc, opcode, ins⟩] else #[]⟩

/-- Executes a word that was fetched at the program counter. -/
def run (e : Engine) (opcode : UInt16) : Transition Engine Unit :=
  let pc := e.machine.pc
  let ins := Instruction.decode opcode
  let seen := e.observe pc opcode ins
  match ins.execute e.dialect e.policy pc e.machine.skip e.random with
  | ⟨m, r, none⟩ => ⟨{ e with machine := m, random := r, executed := e.executed + 1 }, .ok (), seen⟩
  | ⟨m, r, some (.fault cause)⟩ =>
    let fault : Fault := ⟨cause, pc, opcode⟩
    ⟨{ e with random := r }.halt m fault, .error (.stopped fault), seen⟩
  | ⟨m, r, some (.misuse error)⟩ =>
    ⟨{ e with machine := m, random := r }, .error (.range error), seen⟩

/-- Fetches the word at the program counter and executes it. -/
def advance (e : Engine) : Transition Engine Unit :=
  match e.machine.wordAt e.machine.pc with
  | .error f =>
    let fault : Fault := ⟨.machine f, e.machine.pc, 0⟩
    ⟨e.halt e.machine fault, .error (.stopped fault), .none⟩
  | .ok opcode => e.run opcode

/-- One step: the instruction at the program counter, or a look for the key that the program waits
for. An engine that has stopped does nothing. -/
def step (e : Engine) : Transition Engine Unit :=
  match e.fault with
  | some _ => ⟨e, .ok (), .none⟩
  | none =>
    match e.machine.keyWait with
    | some target => ⟨e.poll target, .ok (), .none⟩
    | none => e.advance

/-- The steps of an engine, ended by an error or a stop, as long as their count is below a bound. A
state is the engine together with what has been seen. -/
def stepLoop (bound : Number) : Loop (Engine × Observed) (Transition Engine Unit) where
  bound := bound
  body := fun _ s =>
    if s.1.halted then some (.done ⟨s.1, .ok (), s.2⟩)
    else match s.1.step with
      | ⟨e, .ok (), now⟩ => some (.next (e, s.2 ++ now))
      | ⟨e, .error error, now⟩ => some (.done ⟨e, .error error, s.2 ++ now⟩)
  finish := fun s => ⟨s.1, .ok (), s.2⟩

/-- What the steps come to that an engine makes below a bound. -/
def stepsBelow (e : Engine) (bound : Number) : Option (Transition Engine Unit) :=
  (stepLoop bound).run (e, .none)

/-- The word at a place, which must be in memory, decoded. -/
def instructionAt (e : Engine) (place : Place) : Except MachineFault (UInt16 × Instruction) := do
  let word ← e.machine.wordAt place
  return (word, Instruction.decode word)

/-- The trace line of the instruction at the program counter. -/
def upcomingLine (e : Engine) : Except MachineFault String := do
  let (word, ins) ← e.instructionAt e.machine.pc
  return traceLine e.machine.pc.number (.finite word.toNat) ins.mnemonic ins.operand
    e.machine.snapshot

end Engine

end Chip8
