import Chip8.Engine
import Chip8.Settings
/-!
# Sessions

A session keeps its settings and the current program, and rebuilds machine and engine from them
whenever a program is loaded or the session is reset. What survives is the position in the stream
of random bytes. Time is counted in frames: as many steps as the settings say, then one tick of the
timers. Where the settings say more than the count of steps comes to, a frame may have no end.
-/

namespace Chip8

/-- A running program with the settings it runs under. -/
structure Session where
  settings : Settings
  tracing : Tracing
  rom : Rom
  engine : Engine

/-- What a frame did: how many instructions were completed and whether the engine has stopped. -/
structure FrameReport where
  instructions : Nat
  halted : Bool
deriving DecidableEq, Repr

/-- What a host may do to a session. -/
inductive Action where
  | load (bytes : List UInt8)
  | reset
  | step
  | frame
  | tick
  | setKey (index : Number) (down : Bool)
  | releaseKeys
  | setHook (on : Bool)
  | setPolicy (policy : UnknownPolicy)
deriving DecidableEq, Repr

namespace Session

/-- The engine that is to run the program in a memory. -/
def freshEngine (settings : Settings) (tracing : Tracing) (memory : Memory)
    (random : RandomSource) : Engine :=
  .start (.start memory) settings.dialect settings.unknownOpcodes tracing random

/-- A session without a program. -/
def start (settings : Settings) (tracing : Tracing) (random : RandomSource) : Session :=
  ⟨settings, tracing, .empty, freshEngine settings tracing .powerOn random⟩

/-- Power-on with a program. -/
def boot (s : Session) (rom : Rom) : Session :=
  { s with
    rom := rom
    engine := freshEngine s.settings s.tracing (Memory.powerOn.load rom) s.engine.random }

/-- Loads a program, unless there are too many bytes. -/
def load (s : Session) (bytes : List UInt8) : Session × Except RomError Unit :=
  match Rom.ofBytes bytes with
  | .error e => (s, .error e)
  | .ok rom => (s.boot rom, .ok ())

/-- The program begins anew. -/
def reset (s : Session) : Session := s.boot s.rom

/-- The session with another engine. -/
def withEngine (s : Session) (engine : Engine) : Session := { s with engine := engine }

/-- The session with another machine. -/
def withMachine (s : Session) (machine : Machine) : Session :=
  s.withEngine (s.engine.withMachine machine)

/-- The machine of the session. -/
def machine (s : Session) : Machine := s.engine.machine

/-- One step of the engine. -/
def step (s : Session) : Transition Session Unit :=
  match s.engine.step with
  | ⟨engine, result, seen⟩ => ⟨s.withEngine engine, result, seen⟩

/-- One tick of the timers. -/
def tick (s : Session) : Session := s.withMachine s.machine.tick

/-- The end of a frame whose steps came to something. An error ends the frame before the timers
tick. -/
def endFrame (s : Session) : Transition Engine Unit → Transition Session FrameReport
  | ⟨engine, .error error, seen⟩ => ⟨s.withEngine engine, .error error, seen⟩
  | ⟨engine, .ok (), seen⟩ =>
    ⟨(s.withEngine engine).tick, .ok ⟨engine.executed - s.engine.executed, engine.halted⟩, seen⟩

/-- One frame, which comes to nothing if its steps have no end. -/
def frame (s : Session) : Option (Transition Session FrameReport) :=
  (s.engine.stepsBelow s.settings.instructionsPerFrame).map s.endFrame

/-- The key of an index goes down or up. -/
def setKey (s : Session) (index : Number) (down : Bool) : Session × Except InputError Unit :=
  match s.machine.keypad.setKey index down with
  | (keypad, result) => (s.withMachine { s.machine with keypad := keypad }, result)

/-- All keys go up. -/
def releaseKeys (s : Session) : Session :=
  s.withMachine { s.machine with keypad := s.machine.keypad.releaseAll }

/-- Whether the sound timer runs. -/
def isSounding (s : Session) : Bool := s.machine.sound ≠ 0

/-- Whether the program counter is at a jump to itself. -/
def isSpinning (s : Session) : Except MachineFault Bool :=
  let pc := s.machine.pc
  if pc.isBeyond 0xFFE then .ok false
  else do
    let word ← s.machine.wordAt pc
    return (word.toNat : Int) = 0x1000 + pc.whole

/-- A change that always succeeds and lets nothing be seen. -/
def quietly (s : Session) : Transition Session (Option FrameReport) := ⟨s, .ok none, .none⟩

/-- A change that may have failed and lets nothing be seen. -/
def changed {ε : Type} (kind : ε → Error) :
    Session × Except ε Unit → Transition Session (Option FrameReport)
  | (s, .ok ()) => s.quietly
  | (s, .error e) => ⟨s, .error (kind e), .none⟩

/-- Does what a host asks for. A frame reports what it did. There is no session after a frame that
has no end; here that of before stands for it. -/
def act (s : Session) : Action → Transition Session (Option FrameReport)
  | .load bytes => changed .rom (s.load bytes)
  | .reset => s.reset.quietly
  | .step =>
    match s.step with
    | ⟨s', result, seen⟩ => ⟨s', (fun _ => none) <$> result, seen⟩
  | .frame =>
    match s.frame with
    | some ⟨s', result, seen⟩ => ⟨s', some <$> result, seen⟩
    | none => s.quietly
  | .tick => s.tick.quietly
  | .setKey index down => changed .range (s.setKey index down)
  | .releaseKeys => s.releaseKeys.quietly
  | .setHook on => (s.withEngine { s.engine with hooked := on }).quietly
  | .setPolicy policy => (s.withEngine { s.engine with policy := policy }).quietly

end Session

end Chip8
