import Chip8.Command.Host
import Chip8.Command.RunRom
import Chip8.Session
/-!
# Tracing a program

Prints the instructions of a program file, either as a listing of the file or as they are executed,
a line before each. A trace ends after a number of instructions, at a fault, or where the program
waits for a key. The timers tick after every frame's worth of instructions.
-/

namespace Chip8.TraceRom

/-- What the arguments ask for. -/
structure Request where
  rom : String
  limit : Number
  listing : Bool := false
deriving DecidableEq

/-- The line that shows how the program is called. -/
def usage : String := "Usage: trace-rom --rom=<file> [--max=N] [--listing]"

/-- Takes one argument into account. A flag of another name is passed over. -/
def readArgument (r : Request) (argument : String) : Request :=
  if let some rom := RunRom.behind? "--rom=" argument then { r with rom := rom }
  else if let some n := RunRom.behind? "--max=" argument then
    { r with limit := Number.ofLeadingInteger n.toList }
  else if argument = "--listing" then { r with listing := true }
  else if (RunRom.behind? "-" argument).isNone then { r with rom := argument }
  else r

/-- What the arguments ask for; the environment may name the program file and the limit. -/
def request (env : Environment) (arguments : List String) : Request :=
  let limit := (Environment.given env.traceLimit).getD "1000"
  arguments.foldl readArgument
    { rom := (Environment.given env.rom).getD "", limit := Number.ofLeadingInteger limit.toList }

/-- The bound on the number of instructions traced: the limit if it is a positive number, and a
thousand if it is not. -/
def Request.count (r : Request) : Number :=
  match r.limit with
  | .finite q => .finite (if q < 1 then 1000 else q)
  | _ => .finite 1000

/-- Whether a frame is complete after some instructions. -/
def completesFrame (perFrame : Number) (instructions : Nat) : Bool :=
  match perFrame.toInt? with
  | some n => (instructions : Int) % n = 0
  | none => false

/-- A session after one of its steps, the number of those before it being given. -/
def tickAfter (done : Nat) (s : Session) : Session :=
  if completesFrame s.settings.instructionsPerFrame (Number.counted (done + 1)) then s.tick else s

/-- One instruction of the trace of a session, the number of those before it being given, behind
what has been printed. -/
def traceStep (done : Nat) (s : Session) (t : Transcript) :
    Round (Session × Transcript) Transcript :=
  if s.machine.keyWait.isSome then .done (t.print .out "-- waiting for key; trace stops")
  else match s.engine.upcomingLine with
    | .error fault => .done (t.fail (.machine fault))
    | .ok line =>
      let t := t.print .out line
      match s.step with
      | ⟨_, .error (.stopped fault), seen⟩ =>
        .done (((t.printAll seen.lines).print .out ("-- " ++ fault.message)).exit 1)
      | ⟨_, .error e, seen⟩ => .done ((t.printAll seen.lines).fail e)
      | ⟨s, .ok (), seen⟩ => .next (tickAfter done s, t.printAll seen.lines)

/-- The instructions of a trace. -/
def traceLoop (count : Number) : Loop (Session × Transcript) Transcript where
  bound := count
  body := fun done state => some (traceStep done state.1 state.2)
  finish := fun state => state.2

/-- The listing of a program. -/
def listing (bytes : List UInt8) : Transcript :=
  Transcript.empty.printAll (Instruction.listing (.address Memory.programStart) bytes).toArray

/-- Traces a program under settings. -/
def trace (host : Host) (settings : Settings) (bytes : List UInt8) (count : Number) :
    Option Transcript :=
  let tracing := Tracing.ofTexts host.environment.trace host.environment.traceWindow
  match (Session.start settings tracing host.random).load bytes with
  | (_, .error e) => some (Transcript.empty.fail (.rom e))
  | (s, .ok ()) => (traceLoop count).run (s, .empty)

/-- Does what a request asks for. -/
def perform (host : Host) (r : Request) : Option Transcript :=
  match host.readRom r.rom with
  | .error e => some (Transcript.empty.fail e)
  | .ok bytes =>
    if r.listing then some (listing bytes)
    else match Settings.resolve {} host.environment with
      | .error e => some (Transcript.empty.fail (.range e))
      | .ok settings => trace host settings bytes r.count

/-- The program. -/
def run (host : Host) (arguments : List String) : Option Transcript :=
  let r := request host.environment arguments
  if r.rom = "" then some ((Transcript.empty.print .err usage).exit 2) else perform host r

end Chip8.TraceRom
