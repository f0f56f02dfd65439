import Chip8.Command.Host
import Chip8.Run
import Chip8.Text.Quoted
/-!
# Running a program and showing its last screen

Runs a program file for a number of frames and prints the screen it ends with and a summary as a
JSON object; on request it also stores the screen as a picture. The exit code is 2 for a misuse of
the program or an unsuitable file, 1 for a program that faulted or an error, and 0 otherwise.
-/

namespace Chip8.RunRom

/-- What the arguments ask for. -/
structure Request where
  rom : String
  frames : Number := .finite 600
  instructionsPerFrame : Option Number := none
  picture : Option Path := none
  scale : Number := .finite 8
  lenient : Bool := false
  dialect : DialectChoice := {}
deriving DecidableEq

/-- The line that shows how the program is called. -/
def usage : String :=
  "Usage: run-rom --rom=<file> [--frames=N] [--ipf=N] [--png=<out>] [--scale=N] [--lenient] " ++
    "[--shift-vy] [--memory-increments-i] [--vf-reset]"

/-- Reads a positive integer at the start of a text; the rest of the text does not count. -/
def positive (flag text : String) : Except String Number :=
  match Number.ofLeadingInteger text.toList with
  | .finite q =>
    if q < 1 then .error (flag ++ " expects a positive integer, got \"" ++ text ++ "\"")
    else .ok (.finite q)
  | _ => .error (flag ++ " expects a positive integer, got \"" ++ text ++ "\"")

/-- The rest of a text behind a start that it may have. -/
def behind? (start text : String) : Option String :=
  if start.toList.isPrefixOf text.toList then
    some (String.ofList (text.toList.drop start.toList.length))
  else none

/-- Takes one argument into account. -/
def readArgument (cwd : Path) (r : Request) (argument : String) : Except String Request :=
  if let some rom := behind? "--rom=" argument then .ok { r with rom := rom }
  else if let some n := behind? "--frames=" argument then
    (positive "--frames" n).map fun n => { r with frames := n }
  else if let some n := behind? "--ipf=" argument then
    (positive "--ipf" n).map fun n => { r with instructionsPerFrame := some n }
  else if let some path := behind? "--png=" argument then
    .ok { r with picture := some (cwd.resolve path) }
  else if let some n := behind? "--scale=" argument then
    (positive "--scale" n).map fun n => { r with scale := n }
  else if argument = "--lenient" then .ok { r with lenient := true }
  else if argument = "--shift-vy" then
    .ok { r with dialect := { r.dialect with shiftReadsY := some true } }
  else if argument = "--memory-increments-i" then
    .ok { r with dialect := { r.dialect with transferMovesIndex := some true } }
  else if argument = "--vf-reset" then
    .ok { r with dialect := { r.dialect with logicClearsFlag := some true } }
  else if (behind? "-" argument).isNone && r.rom = "" then .ok { r with rom := argument }
  else .error ("Unknown argument: " ++ argument)

/-- Takes arguments into account one after the other. -/
def readArguments (cwd : Path) (r : Request) : List String → Except String Request
  | [] => if r.rom = "" then .error "Missing ROM path" else .ok r
  | argument :: rest => do readArguments cwd (← readArgument cwd r argument) rest

/-- What the arguments ask for; the program file may also be named by the environment. -/
def request (cwd : Path) (env : Environment) (arguments : List String) : Except String Request :=
  readArguments cwd { rom := (Environment.given env.rom).getD "" } arguments

/-- The options that a request makes. -/
def Request.options (r : Request) : Options where
  instructionsPerFrame := r.instructionsPerFrame
  unknownOpcodes := if r.lenient then some .lenient else none
  dialect := r.dialect

/-- The summary of a run. -/
def summary (rom : String) (report : RunReport) : String :=
  "\x7b\"rom\":" ++ Text.quoted rom ++
    ",\"reason\":" ++ Text.quoted report.ending.reason ++
    ",\"frames\":" ++ Number.intText report.frames ++
    ",\"instructions\":" ++ Number.intText report.instructions ++
    ",\"screenCrc\":" ++ Text.quoted (Crc32.checksumHex report.session.machine.screen.toBytes) ++
    ",\"message\":" ++ (report.ending.message?.elim "null" Text.quoted) ++ "\x7d"

/-- The picture of a screen to be stored at a path, if it can be. -/
def pictureFile (host : Host) (path : Path) (scale : Number) (s : Screen) :
    Except Error Picture := do
  (host.makeParent path).mapError Error.system
  let picture ← Picture.makeWithin host.memory s scale .white .black
  (host.create path).mapError Error.system
  return picture

/-- Shows how a run ended. -/
def conclude (host : Host) (r : Request) (report : RunReport) : Transcript :=
  let screen := report.session.machine.screen
  let t := Transcript.empty.printAll report.observed.lines
  let t := (t.print .out screen.toText).print .out (summary r.rom report)
  let code := match report.ending with
    | .faulted _ => 1
    | _ => 0
  match r.picture with
  | none => t.exit code
  | some path =>
    match pictureFile host path r.scale screen with
    | .error e => t.fail e
    | .ok picture =>
      ((t.write path (.picture picture)).print .out ("Wrote " ++ path.text)).exit code

/-- Does what a request asks for. -/
def perform (host : Host) (r : Request) : Option Transcript :=
  match host.readRom r.rom with
  | .error (.rom e) => some ((Transcript.empty.print .err e.message).exit 2)
  | .error e => some (Transcript.empty.fail e)
  | .ok bytes =>
    match Settings.resolve r.options host.environment with
    | .error e => some (Transcript.empty.fail (.range e))
    | .ok settings =>
      let tracing := Tracing.ofTexts host.environment.trace host.environment.traceWindow
      let plan : RunPlan := { maxFrames := r.frames, events := [], stopWhen := none }
      match runRom settings tracing host.random bytes plan with
      | none => none
      | some (.error e) => some (Transcript.empty.fail e)
      | some (.ok report) => some (conclude host r report)

/-- The program. -/
def run (host : Host) (arguments : List String) : Option Transcript :=
  match request host.cwd host.environment arguments with
  | .error message => some (((Transcript.empty.print .err message).print .err usage).exit 2)
  | .ok r => perform host r

end Chip8.RunRom
